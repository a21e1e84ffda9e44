import AutomataKit.Dfa.Document
import AutomataKit.Proofs.Json.Equality

/-!
# The checks of a description one by one

The checks of a description are made one after the other (`Dfa.checks`): those of its entries and of
its lists of names, those of the row of each state, and in a row those of each symbol, those of the
start state and of the accepting states. A check says by itself when it passes, what it reports and
in which words (`Dfa.Check.Says`), in terms of the members of the object and of the equality of
values.

Checking goes on as long as checks pass (`Dfa.Scans`). What is found is what the first failing check
reports (`Dfa.Scans.some_iff`).
-/

namespace AutomataKit

namespace Json

/-- A text names a value in a message. A string stands as it is. -/
inductive Names : Json → String → Prop
  | text (text : String) : Names (.str text) text
  | null : Names .null "None"
  | true : Names (.bool true) "True"
  | false : Names (.bool false) "False"
  | int (value : Int) : Names (.int value) (toString value)
  | float (value : Binary64) : Names (.float value) (value.text "inf" "nan")
  | list (items : List Json) : Names (.arr items) (literal (.arr items))
  | object (members : List (String × Json)) : Names (.obj members) (literal (.obj members))

/-- Every value has the one name that messages display. -/
theorem names_iff {value : Json} {text : String} : Names value text ↔ value.display = text := by
  constructor
  · intro names
    cases names <;> rfl
  · rintro rfl
    cases value with
    | bool value => cases value <;> constructor
    | null | int value | float value | str text | arr items | obj members => constructor

end Json

namespace Dfa

/-- One of the checks of a description. -/
inductive Check where
  /-- The entry is there. -/
  | present (entry : Entry)
  /-- The entry is a list. -/
  | isList (entry : Entry)
  /-- The elements of the entry can be names and differ from each other. -/
  | distinct (entry : Entry)
  /-- The transitions are an object. -/
  | rows
  /-- The transitions have an object as the row of the state. -/
  | row (state : Json)
  /-- The row of the state has a target for the symbol. -/
  | target (state symbol : Json)
  /-- The target for the symbol is one of the states. -/
  | known (state symbol : Json)
  /-- The start state is one of the states. -/
  | start
  /-- The accepting state is one of the states. -/
  | accept (state : Json)

section

variable (members : List (String × Json))

/-- The elements of an entry that is a list. -/
def listed (entry : Entry) : List Json :=
  ((members.lookup entry.key).map Json.items).getD []

/-- A state has a row. Only a string can be the name of a member. -/
def HasRow (state : Json) (row : List (String × Json)) : Prop :=
  ∃ name rows, state = .str name ∧
    members.lookup Entry.transitions.key = some (.obj rows) ∧ rows.lookup name = some (.obj row)

/-- The row of a state leads to a target on a symbol. -/
def LeadsTo (state symbol target : Json) : Prop :=
  ∃ name row, symbol = .str name ∧ HasRow members state row ∧ row.lookup name = some target

/-- The value is one of the states. -/
def IsState (value : Json) : Prop := ∃ state ∈ listed members .states, value.Equals state

/-- When a check passes. -/
def Check.Passes : Check → Prop
  | present entry => ∃ value, members.lookup entry.key = some value
  | isList entry => ∃ items, members.lookup entry.key = some (.arr items)
  | distinct entry =>
    (∀ value ∈ listed members entry, value.IsScalar) ∧
      (listed members entry).Pairwise fun left right => ¬ left.Equals right
  | rows => ∃ rows, members.lookup Entry.transitions.key = some (.obj rows)
  | row state => ∃ row, HasRow members state row
  | target state symbol => ∃ target, LeadsTo members state symbol target
  | known state symbol => ∃ target, LeadsTo members state symbol target ∧ IsState members target
  | start => ∃ value, members.lookup Entry.startState.key = some value ∧ IsState members value
  | accept state => IsState members state

/-- What is reported when a check fails. -/
inductive Check.Reports : Check → Defect → Prop
  | present (entry : Entry) : Reports (.present entry) (.missing entry)
  | isList (entry : Entry) : Reports (.isList entry) (.notList entry)
  | distinct (entry : Entry) : Reports (.distinct entry) (.repeated entry)
  | rows : Reports .rows .transitionsNotObject
  | row (state : Json) : Reports (.row state) (.noRow state)
  | target (state symbol : Json) : Reports (.target state symbol) (.noTarget state symbol)
  | known {state symbol target : Json} (leads : LeadsTo members state symbol target) :
      Reports (.known state symbol) (.unknownTarget state symbol target)
  | start : Reports .start .unknownStart
  | accept (state : Json) : Reports (.accept state) (.unknownAccept state)

/-- The words in which a check is reported when it fails: those of the failure, around the names of
the entry or of the state, the symbol and the target. -/
inductive Check.Says : Check → String → Prop
  | present (entry : Entry) : Says (.present entry) ("Missing required key: " ++ entry.key)
  | isList (entry : Entry) : Says (.isList entry) (entry.key ++ " must be a list")
  | distinct (entry : Entry) : Says (.distinct entry) (entry.key ++ " must not contain duplicates")
  | rows : Says .rows "transitions must be a dictionary"
  | row {state : Json} {name : String} (names : state.Names name) :
      Says (.row state) ("No transitions defined for state " ++ name)
  | target {state symbol : Json} {name letter : String} (names : state.Names name)
      (reads : symbol.Names letter) :
      Says (.target state symbol)
        ("Missing transition for state " ++ name ++ " on symbol '" ++ letter ++ "'")
  | known {state symbol target : Json} {name letter other : String} (names : state.Names name)
      (reads : symbol.Names letter) (leads : LeadsTo members state symbol target)
      (namesTarget : target.Names other) :
      Says (.known state symbol)
        ("Transition from " ++ name ++ " on '" ++ letter ++ "' targets unknown state " ++ other)
  | start : Says .start "Start state not in states list"
  | accept {state : Json} {name : String} (names : state.Names name) :
      Says (.accept state) ("Accept state " ++ name ++ " not in states list")

/-- The checks that come before those of single names. -/
def openingChecks : List Check :=
  [.present .states, .present .alphabet, .present .transitions, .present .startState,
    .present .acceptStates, .isList .states, .distinct .states, .isList .alphabet,
    .distinct .alphabet, .rows]

/-- The checks of a symbol in the row of a state. -/
def symbolChecks (state symbol : Json) : List Check := [.target state symbol, .known state symbol]

/-- The checks of the row of a state. -/
def stateChecks (state : Json) : List Check :=
  .row state :: (listed members .alphabet).flatMap (symbolChecks state)

/-- All checks in the order in which they are made. -/
def checks : List Check :=
  openingChecks ++ (listed members .states).flatMap (stateChecks members) ++
    .start :: .isList .acceptStates :: (listed members .acceptStates).map .accept

end

variable {members : List (String × Json)}

/-- A check is reported in the words of what it reports. -/
theorem Check.worded_iff {check : Check} {text : String} :
    check.Says members text ↔
      ∃ defect, check.Reports members defect ∧ defect.message = text := by
  constructor
  · intro worded
    cases worded with
    | present entry => exact ⟨_, .present entry, rfl⟩
    | isList entry => exact ⟨_, .isList entry, rfl⟩
    | distinct entry => exact ⟨_, .distinct entry, rfl⟩
    | rows => exact ⟨_, .rows, rfl⟩
    | row names =>
      cases Json.names_iff.mp names
      exact ⟨_, .row _, rfl⟩
    | target names reads =>
      cases Json.names_iff.mp names
      cases Json.names_iff.mp reads
      exact ⟨_, .target _ _, rfl⟩
    | known names reads leads namesTarget =>
      cases Json.names_iff.mp names
      cases Json.names_iff.mp reads
      cases Json.names_iff.mp namesTarget
      exact ⟨_, .known leads, rfl⟩
    | start => exact ⟨_, .start, rfl⟩
    | accept names =>
      cases Json.names_iff.mp names
      exact ⟨_, .accept _, rfl⟩
  · have named (value : Json) : value.Names value.display := Json.names_iff.mpr rfl
    rintro ⟨defect, reports, rfl⟩
    cases reports with
    | present entry => exact .present entry
    | isList entry => exact .isList entry
    | distinct entry => exact .distinct entry
    | rows => exact .rows
    | row state => exact .row (named state)
    | target state symbol => exact .target (named state) (named symbol)
    | known leads => exact .known (named _) (named _) leads (named _)
    | start => exact .start
    | accept state => exact .accept (named state)

/-- A check reports one defect. -/
theorem Check.Reports.unique {check : Check} {first second : Defect}
    (left : check.Reports members first) (right : check.Reports members second) :
    first = second := by
  cases left with
  | known leads =>
    cases right with
    | known otherLeads =>
      obtain ⟨name, row, rfl, ⟨state, rows, rfl, entry, found⟩, stored⟩ := leads
      obtain ⟨_, _, ⟨⟩, ⟨_, _, ⟨⟩, sameEntry, sameFound⟩, sameStored⟩ := otherLeads
      cases entry.symm.trans sameEntry
      cases found.symm.trans sameFound
      cases stored.symm.trans sameStored
      rfl
  | present entry | isList entry | distinct entry | rows | row state | target state symbol | start
  | accept state => cases right; rfl

/-! ## Checking until a check fails -/

variable (members) in
/-- Checks are made from left to right, until one fails and is reported. -/
inductive Scans : List Check → Option Defect → Prop
  | passed : Scans [] none
  | failed {check : Check} {rest : List Check} {defect : Defect} (fails : ¬ check.Passes members)
      (reports : check.Reports members defect) : Scans (check :: rest) (some defect)
  | next {check : Check} {rest : List Check} {found : Option Defect}
      (passes : check.Passes members) (onward : Scans rest found) : Scans (check :: rest) found

namespace Scans

variable {first second : List Check} {defect : Defect}

/-- When the first checks pass the other ones are made. -/
theorem append {found onward : Option Defect}
    (scans : Scans members first found) (scansNext : found = none → Scans members second onward) :
    Scans members (first ++ second) (found <|> onward) := by
  induction scans with
  | passed => exact scansNext rfl
  | failed fails reports => exact .failed fails reports
  | next passes _ ih => exact .next passes (ih scansNext)

theorem flatMap {α : Type} {items : List α} {each : α → List Check} {find : α → Option Defect}
    (scans : ∀ item ∈ items, Scans members (each item) (find item)) :
    Scans members (items.flatMap each) (items.findSome? find) := by
  induction items with
  | nil => exact .passed
  | cons item rest ih =>
    have later := ih fun other member => scans other (List.mem_cons_of_mem item member)
    have both := (scans item List.mem_cons_self).append fun _ => later
    rw [List.flatMap_cons, List.findSome?_cons]
    cases found : find item <;> rwa [found] at both

/-- The checks determine what is found. -/
theorem unique {list : List Check} {first second : Option Defect}
    (left : Scans members list first) (right : Scans members list second) : first = second := by
  induction left with
  | passed => cases right; rfl
  | failed fails reports =>
    cases right with
    | failed _ otherReports => rw [reports.unique otherReports]
    | next passes _ => exact absurd passes fails
  | next passes _ ih =>
    cases right with
    | failed fails _ => exact absurd passes fails
    | next _ onward => exact ih onward

/-- Nothing is found when all checks pass. -/
theorem none_iff {list : List Check} :
    Scans members list none ↔ ∀ check ∈ list, check.Passes members := by
  induction list with
  | nil => exact ⟨fun _ => nofun, fun _ => .passed⟩
  | cons check rest ih =>
    rw [List.forall_mem_cons, ← ih]
    constructor
    · intro scans
      cases scans with
      | next passes onward => exact ⟨passes, onward⟩
    · rintro ⟨passes, onward⟩
      exact .next passes onward

/-- A defect is found when some check reports it and the checks before pass. -/
theorem some_iff {list : List Check} :
    Scans members list (some defect) ↔
      ∃ before check after, list = before ++ check :: after ∧
        (∀ earlier ∈ before, earlier.Passes members) ∧ ¬ check.Passes members ∧
        check.Reports members defect := by
  induction list with
  | nil =>
    constructor
    · nofun
    · rintro ⟨before, check, after, split, -⟩
      cases before <;> cases split
  | cons first rest ih =>
    constructor
    · intro scans
      cases scans with
      | failed fails reports => exact ⟨[], first, rest, rfl, nofun, fails, reports⟩
      | next passes onward =>
        obtain ⟨before, check, after, rfl, earlier, failure⟩ := ih.mp onward
        exact ⟨first :: before, check, after, rfl,
          List.forall_mem_cons.mpr ⟨passes, earlier⟩, failure⟩
    · rintro ⟨before, check, after, split, earlier, fails, reports⟩
      cases before with
      | nil =>
        cases split
        exact .failed fails reports
      | cons _ before =>
        cases split
        obtain ⟨passes, earlier⟩ := List.forall_mem_cons.mp earlier
        exact .next passes (ih.mpr ⟨before, check, after, rfl, earlier, fails, reports⟩)

theorem exists_reports {list : List Check} (scans : Scans members list (some defect)) :
    ∃ check ∈ list, ¬ check.Passes members ∧ check.Reports members defect := by
  obtain ⟨before, check, after, rfl, -, failure⟩ := some_iff.mp scans
  exact ⟨check, List.mem_append_cons_self, failure⟩

/-- A defect is found among the first checks, or behind them when they all pass. -/
theorem of_append (scans : Scans members (first ++ second) (some defect)) :
    Scans members first (some defect) ∨
      (∀ check ∈ first, check.Passes members) ∧ Scans members second (some defect) := by
  induction first with
  | nil => exact .inr ⟨nofun, scans⟩
  | cons check rest ih =>
    cases scans with
    | failed fails reports => exact .inl (.failed fails reports)
    | next passes onward =>
      rcases ih onward with here | ⟨earlier, later⟩
      · exact .inl (.next passes here)
      · exact .inr ⟨List.forall_mem_cons.mpr ⟨passes, earlier⟩, later⟩

/-- A defect that is found item by item is found among the checks of one item, and those of the
items before it pass. -/
theorem of_flatMap {α : Type} {items : List α} {each : α → List Check}
    (scans : Scans members (items.flatMap each) (some defect)) :
    ∃ (place : Nat) (item : α), items[place]? = some item ∧
      (∀ check ∈ (items.take place).flatMap each, check.Passes members) ∧
      Scans members (each item) (some defect) := by
  induction items with
  | nil => cases scans
  | cons item rest ih =>
    rw [List.flatMap_cons] at scans
    rcases scans.of_append with here | ⟨earlier, onward⟩
    · exact ⟨0, item, rfl, nofun, here⟩
    · obtain ⟨place, other, found, between, later⟩ := ih onward
      refine ⟨place + 1, other, found, ?_, later⟩
      rw [List.take_succ_cons, List.flatMap_cons]
      exact List.forall_mem_append.mpr ⟨earlier, between⟩

end Scans

end Dfa

end AutomataKit
