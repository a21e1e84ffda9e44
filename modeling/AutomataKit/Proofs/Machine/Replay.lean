import AutomataKit.Dfa.Run
import AutomataKit.Proofs.Dfa.Words
import AutomataKit.Proofs.Machine.DeciderTable
import AutomataKit.Proofs.Machine.Strip

/-!
# The machine of an automaton replays its runs

Before the first blank the machine does what the automaton does, one step for each character, and
leaves the input as it is. A character that is no symbol stops both. On the blank, which stands
after the input or in it, the machine decides by the state of the automaton and halts.
`Dfa.simulate_toMachine` gives the whole record of a simulation in terms of the walk of the
automaton up to the first blank.
-/

namespace AutomataKit

namespace Dfa

variable (dfa : Dfa)

/-- The characters before the first that is the machine's blank. -/
def beforeBlank (chars : List Char) : List Char :=
  chars.takeWhile fun c => String.singleton c ≠ dfa.blankName

/-- The cells with which the machine begins: the characters of the input, or one blank. -/
def inputCells (chars : List Char) : List String :=
  let symbols := chars.map String.singleton
  if symbols.isEmpty then [dfa.blankName] else symbols

/-- The moments at which the machine enters the states of a walk, one place further each time. -/
def trace (chars : List Char) (place : Nat) (visited : List dfa.State) : List Configuration :=
  (visited.zipIdx place).map fun (state, place) => ⟨dfa.name state, dfa.inputCells chars, place⟩

/-- The moment after the machine decided at some place. -/
def decision (chars : List Char) (place : Nat) (state : dfa.State) : Configuration where
  state := dfa.verdictName state
  tape :=
    if 0 < place ∧ place = chars.length then dfa.inputCells chars ++ [dfa.blankName]
    else dfa.inputCells chars
  head := place + 1

variable {dfa}

/-- The states of a walk, from the one in which it begins. -/
def Walk.visited (walk : dfa.Walk) (first : dfa.State) : List dfa.State :=
  first :: walk.steps.map fun (_, _, target) => target

variable (dfa)

/-- The record of the machine from some place of its input on, when the automaton goes on from there
with a walk. -/
def replay (chars : List Char) (place : Nat) (first : dfa.State) (walk : dfa.Walk) (bound : Nat) :
    Simulation :=
  let moments := dfa.trace chars place (walk.visited first)
  if bound ≤ walk.steps.length then ⟨moments.take (bound + 1), bound, .stepLimit⟩
  else if walk.stoppedBy.isSome then ⟨moments, walk.steps.length, .reject⟩
  else
    ⟨moments ++ [dfa.decision chars (place + walk.steps.length) walk.last],
      walk.steps.length + 1, if dfa.accepts walk.last then .accept else .reject⟩

variable {dfa}

/-- Nothing is before a blank at the front. -/
theorem beforeBlank_cons_of_blank {c : Char} (blank : String.singleton c = dfa.blankName)
    (rest : List Char) : dfa.beforeBlank (c :: rest) = [] :=
  List.takeWhile_cons_of_neg (by simpa using blank)

/-- Any other character at the front is before the first blank. -/
theorem beforeBlank_cons_of_ne {c : Char} (other : String.singleton c ≠ dfa.blankName)
    (rest : List Char) : dfa.beforeBlank (c :: rest) = c :: dfa.beforeBlank rest :=
  List.takeWhile_cons_of_pos (by simpa using other)

/-- The characters of an input that is not empty are the cells. -/
theorem inputCells_of_ne_nil {chars : List Char} (nonempty : chars ≠ []) :
    dfa.inputCells chars = chars.map String.singleton := by
  cases chars with
  | nil => exact absurd rfl nonempty
  | cons c rest => rfl

/-- There is at least one cell. -/
theorem length_inputCells (chars : List Char) :
    (dfa.inputCells chars).length = max chars.length 1 := by
  cases chars with
  | nil => rfl
  | cons c rest =>
    rw [inputCells_of_ne_nil (List.cons_ne_nil c rest), List.length_map, List.length_cons]
    omega

/-! ## One step -/

variable (dfa) in
/-- The machine with some characters read and the others to be read. -/
def replayStrip (state : dfa.State) (read rest : List Char) : Strip where
  state := dfa.name state
  cells := dfa.inputCells (read ++ rest)
  head := read.length
  head_ge := by omega
  head_le := by
    rw [length_inputCells, List.length_append]
    omega

/-- While there are characters to be read, the next one is scanned. -/
theorem scan_replayStrip_cons (state : dfa.State) (read : List Char) (c : Char)
    (rest : List Char) :
    ∃ scan, (dfa.replayStrip state read (c :: rest)).scan dfa.blankName = scan ∧
      scan.cells = dfa.inputCells (read ++ c :: rest) ∧ (scan.place : Nat) = read.length ∧
        scan.symbol = String.singleton c := by
  have inside : read.length < (dfa.replayStrip state read (c :: rest)).cells.length := by
    change _ < (dfa.inputCells (read ++ c :: rest)).length
    rw [length_inputCells, List.length_append, List.length_cons]
    omega
  refine ⟨_, Strip.scan_of_lt rfl inside _, rfl, rfl, ?_⟩
  simp [Scan.symbol, replayStrip, inputCells_of_ne_nil]

/-- When all characters are read, a blank is scanned. After an empty input it is the one with which
the machine began. -/
theorem scan_replayStrip_nil (state : dfa.State) (read : List Char) :
    ∃ scan, (dfa.replayStrip state read []).scan dfa.blankName = scan ∧
      scan.cells = (if 0 < read.length then dfa.inputCells read ++ [dfa.blankName]
        else dfa.inputCells read) ∧
      (scan.place : Nat) = read.length ∧ scan.symbol = dfa.blankName := by
  cases read with
  | nil => exact ⟨_, Strip.scan_of_lt rfl Nat.zero_lt_one _, rfl, rfl, rfl⟩
  | cons c read =>
    have cells : (dfa.replayStrip state (c :: read) []).cells =
        (c :: read).map String.singleton := by
      change dfa.inputCells (c :: read ++ []) = _
      rw [List.append_nil, inputCells_of_ne_nil (List.cons_ne_nil c read)]
    have head : (dfa.replayStrip state (c :: read) []).head =
        (dfa.replayStrip state (c :: read) []).cells.length := by
      rw [cells, List.length_map]
      rfl
    refine ⟨_, Strip.scan_of_eq head _, ?_, ?_, ?_⟩
    · change (dfa.replayStrip state (c :: read) []).cells ++ [dfa.blankName] = _
      rw [cells, inputCells_of_ne_nil (List.cons_ne_nil c read), if_pos (by simp)]
    · change (dfa.replayStrip state (c :: read) []).cells.length = _
      rw [cells, List.length_map]
    · simp [Scan.symbol]

/-- A symbol of the automaton is read and left as it is. -/
theorem stripStep?_symbol {c : Char} {symbol : dfa.Symbol} (known : dfa.symbolOf? c = some symbol)
    (state : dfa.State) (read rest : List Char) :
    dfa.toMachine.stripStep? (dfa.replayStrip state read (c :: rest)) =
      some (dfa.replayStrip (dfa.next state symbol) (read ++ [c]) rest) := by
  obtain ⟨scan, scanned, cells, place, scannedSymbol⟩ :=
    scan_replayStrip_cons state read c rest
  have named : dfa.label symbol = scan.symbol :=
    (symbolOf?_eq_some_iff.mp known).trans scannedSymbol.symm
  rw [TuringMachine.stripStep?_of_scan scanned, ← named]
  change (dfa.toMachine.transition? (dfa.name state) (dfa.label symbol)).map _ = _
  rw [transition?_symbol, Option.map_some]
  refine congrArg some (Strip.ext rfl ?_ ?_)
  · rw [Strip.cells_after_of_write_eq named, cells]
    change _ = dfa.inputCells (read ++ [c] ++ rest)
    rw [List.append_assoc, List.singleton_append]
  · change (scan.place : Int) + 1 = ((read ++ [c]).length : Int)
    rw [List.length_append, List.length_singleton, ← place]
    rfl

/-- On a character that is neither a symbol nor the blank the machine is stuck. -/
theorem stripStep?_unknown {c : Char} (unknown : dfa.symbolOf? c = none)
    (other : String.singleton c ≠ dfa.blankName) (state : dfa.State) (read rest : List Char) :
    dfa.toMachine.stripStep? (dfa.replayStrip state read (c :: rest)) = none := by
  obtain ⟨scan, scanned, -, -, scannedSymbol⟩ := scan_replayStrip_cons state read c rest
  rw [TuringMachine.stripStep?_of_scan scanned, scannedSymbol,
    transition?_eq_none (symbolOf?_eq_none_iff.mp unknown) other]
  rfl

/-- On a blank, in the input or after it, the machine decides. -/
theorem stripStep?_blank {rest : List Char} (ended : dfa.beforeBlank rest = [])
    (state : dfa.State) (read : List Char) :
    ∃ next, dfa.toMachine.stripStep? (dfa.replayStrip state read rest) = some next ∧
      next.configuration = dfa.decision (read ++ rest) read.length state := by
  have scans : ∃ scan, (dfa.replayStrip state read rest).scan dfa.blankName = scan ∧
      scan.cells = (dfa.decision (read ++ rest) read.length state).tape ∧
        (scan.place : Nat) = read.length ∧ scan.symbol = dfa.blankName := by
    unfold decision
    cases rest with
    | nil =>
      obtain ⟨scan, scanned, cells, place, symbol⟩ := scan_replayStrip_nil state read
      refine ⟨scan, scanned, ?_, place, symbol⟩
      simpa using cells
    | cons c rest =>
      obtain ⟨scan, scanned, cells, place, symbol⟩ := scan_replayStrip_cons state read c rest
      have blank : String.singleton c = dfa.blankName := by
        by_cases equal : String.singleton c = dfa.blankName
        · exact equal
        · rw [beforeBlank_cons_of_ne equal] at ended
          cases ended
      refine ⟨scan, scanned, ?_, place, symbol.trans blank⟩
      rw [cells, if_neg]
      rw [List.length_append, List.length_cons]
      omega
  obtain ⟨scan, scanned, cells, place, symbol⟩ := scans
  refine ⟨Strip.after scan ⟨dfa.verdictName state, dfa.blankName, .right⟩, ?_, ?_⟩
  · rw [TuringMachine.stripStep?_of_scan scanned, symbol]
    change (dfa.toMachine.transition? (dfa.name state) dfa.blankName).map _ = _
    rw [transition?_blank, Option.map_some]
  · unfold Strip.configuration
    rw [Strip.cells_after_of_write_eq symbol.symm, cells]
    change (⟨_, _, (scan.place : Int) + 1⟩ : Configuration) = _
    rw [show (scan.place : Int) = read.length from congrArg Int.ofNat place]
    rfl

/-! ## The whole run -/

/-- The strip is recorded with the head behind the characters that were read. -/
theorem configuration_replayStrip (state : dfa.State) (read rest : List Char) :
    (dfa.replayStrip state read rest).configuration =
      ⟨dfa.name state, dfa.inputCells (read ++ rest), read.length⟩ :=
  rfl

section

variable (chars : List Char) (place : Nat) (state : dfa.State)

/-- Without steps only the first moment is recorded. -/
theorem replay_zero (walk : dfa.Walk) :
    dfa.replay chars place state walk 0 =
      ⟨[⟨dfa.name state, dfa.inputCells chars, place⟩], 0, .stepLimit⟩ := by
  unfold replay
  rw [if_pos (Nat.zero_le _)]
  rfl

/-- Once the walk has ended, the machine decides. -/
theorem replay_succ_of_ended (bound : Nat) :
    dfa.replay chars place state ⟨[], state, none⟩ (bound + 1) =
      ⟨[⟨dfa.name state, dfa.inputCells chars, place⟩, dfa.decision chars place state], 1,
        if dfa.accepts state then .accept else .reject⟩ := by
  have beyond : ¬ bound + 1 ≤ ([] : List (dfa.State × Char × dfa.State)).length :=
    Nat.not_succ_le_zero bound
  unfold replay
  rw [if_neg beyond]
  rfl

/-- A walk that was stopped ends the record where it stands. -/
theorem replay_succ_of_stopped (c : Char) (bound : Nat) :
    dfa.replay chars place state ⟨[], state, some c⟩ (bound + 1) =
      ⟨[⟨dfa.name state, dfa.inputCells chars, place⟩], 0, .reject⟩ := by
  have beyond : ¬ bound + 1 ≤ ([] : List (dfa.State × Char × dfa.State)).length :=
    Nat.not_succ_le_zero bound
  unfold replay
  rw [if_neg beyond]
  rfl

/-- A step of the walk is one of the machine, and the record goes on one place further. -/
theorem replay_succ_of_step (c : Char) (next : dfa.State) (walk : dfa.Walk) (bound : Nat) :
    dfa.replay chars place state ⟨(state, c, next) :: walk.steps, walk.last, walk.stoppedBy⟩
        (bound + 1) =
      ⟨⟨dfa.name state, dfa.inputCells chars, place⟩ ::
          (dfa.replay chars (place + 1) next walk bound).configurations,
        (dfa.replay chars (place + 1) next walk bound).steps + 1,
        (dfa.replay chars (place + 1) next walk bound).outcome⟩ := by
  have later : place + (walk.steps.length + 1) = place + 1 + walk.steps.length := by omega
  unfold replay
  simp only [List.length_cons, Nat.add_le_add_iff_right, later]
  by_cases cut : bound ≤ walk.steps.length
  · simp only [cut, ↓reduceIte]
    rfl
  · simp only [cut, ↓reduceIte]
    by_cases stopped : walk.stoppedBy.isSome = true
    · simp only [stopped, ↓reduceIte]
      rfl
    · simp only [stopped, Bool.false_eq_true, ↓reduceIte]
      rfl

end

/-- The state that the machine enters on a blank has the verdict of the automaton's state. -/
theorem verdict_verdictName (state : dfa.State) :
    dfa.toMachine.verdict (dfa.verdictName state) =
      if dfa.accepts state then .accept else .reject := by
  unfold TuringMachine.verdict verdictName
  by_cases accepting : dfa.accepts state = true
  · rw [if_pos accepting, if_pos accepting]
    exact if_pos rfl
  · rw [if_neg accepting, if_neg accepting]
    exact if_neg dfa.rejectName_ne_acceptName

/-- The rejecting state rejects. -/
theorem verdict_reject : dfa.toMachine.verdict dfa.toMachine.reject = .reject :=
  if_neg dfa.rejectName_ne_acceptName

/-- A machine that is about to decide does so in one step. -/
theorem simulateFrom_of_blank {instant : Instant} {state : dfa.State} {read rest : List Char}
    (shows : dfa.toMachine.Shows instant (dfa.replayStrip state read rest))
    (ended : dfa.beforeBlank rest = []) (bound : Nat) :
    dfa.toMachine.simulateFrom (bound + 1) instant =
      dfa.replay (read ++ rest) read.length state ⟨[], state, none⟩ (bound + 1) := by
  have going : ¬ dfa.toMachine.Halting instant.state :=
    shows.state_eq ▸ dfa.not_halting_name state
  obtain ⟨next, stepped, decided⟩ := stripStep?_blank ended state read
  have step := shows.step?
  rw [stepped] at step
  obtain ⟨onward, moved, shown⟩ := step
  have seen : onward.configuration = dfa.decision (read ++ rest) read.length state :=
    shown.configuration_eq.trans decided
  have entered : onward.state = dfa.verdictName state := congrArg Configuration.state seen
  rw [TuringMachine.simulateFrom_succ_of_some going moved,
    TuringMachine.simulateFrom_of_halting (entered ▸ dfa.halting_verdictName state),
    replay_succ_of_ended, shows.configuration_eq, configuration_replayStrip, seen, entered,
    verdict_verdictName]

/-- **The machine replays the automaton.** From any place of its input on, the machine records what
the walk of the automaton up to the next blank prescribes. -/
theorem simulateFrom_eq_replay {instant : Instant} {state : dfa.State} {read rest : List Char}
    (shows : dfa.toMachine.Shows instant (dfa.replayStrip state read rest)) (bound : Nat) :
    dfa.toMachine.simulateFrom bound instant =
      dfa.replay (read ++ rest) read.length state (dfa.walk state (dfa.beforeBlank rest))
        bound := by
  have going : ¬ dfa.toMachine.Halting instant.state :=
    shows.state_eq ▸ dfa.not_halting_name state
  -- The induction is on the characters to be read; a character read is moved to the others.
  induction rest generalizing instant state read bound with
  | nil =>
    cases bound with
    | zero =>
      rw [TuringMachine.simulateFrom_zero going, replay_zero, shows.configuration_eq,
        configuration_replayStrip]
    | succ bound => exact simulateFrom_of_blank shows rfl bound
  | cons c rest ih =>
    cases bound with
    | zero =>
      rw [TuringMachine.simulateFrom_zero going, replay_zero, shows.configuration_eq,
        configuration_replayStrip]
    | succ bound =>
      by_cases blank : String.singleton c = dfa.blankName
      · have ended : dfa.beforeBlank (c :: rest) = [] := beforeBlank_cons_of_blank blank rest
        rw [simulateFrom_of_blank shows ended, ended]
        rfl
      · have onward : dfa.beforeBlank (c :: rest) = c :: dfa.beforeBlank rest :=
          beforeBlank_cons_of_ne blank rest
        have step := shows.step?
        rw [onward]
        cases found : dfa.symbolOf? c with
        | none =>
          rw [stripStep?_unknown found blank] at step
          rw [TuringMachine.simulateFrom_succ_of_none going step, walk_cons_of_none found,
            replay_succ_of_stopped, shows.configuration_eq, configuration_replayStrip,
            verdict_reject]
        | some symbol =>
          rw [stripStep?_symbol found] at step
          obtain ⟨next, moved, shown⟩ := step
          have rests := ih shown bound (shown.state_eq ▸ dfa.not_halting_name _)
          rw [List.append_assoc, List.singleton_append, List.length_append,
            List.length_singleton] at rests
          rw [TuringMachine.simulateFrom_succ_of_some going moved, rests,
            walk_cons_of_some found, replay_succ_of_step, shows.configuration_eq,
            configuration_replayStrip]

/-- The record of the machine on a whole input. -/
theorem simulate_toMachine (text : String) (maxSteps : Int) :
    dfa.toMachine.simulate text maxSteps =
      dfa.replay text.toList 0 dfa.start
        (dfa.walk dfa.start (dfa.beforeBlank text.toList)) maxSteps.toNat := by
  have shows : dfa.toMachine.Shows (dfa.toMachine.initial text)
      (dfa.replayStrip dfa.start [] text.toList) := dfa.toMachine.shows_initial text
  exact simulateFrom_eq_replay shows maxSteps.toNat

end Dfa

end AutomataKit
