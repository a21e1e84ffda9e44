import AutomataKit.Text.Integer

/-!
# Which texts hold a whole number

`Text.Denotes` says how a whole number is written: digits, single underscores between them, a sign
before them, blanks on either side. Reading finds exactly the numbers that are written in this way
(`Text.readInt?_eq_some_iff`). As no digit and no sign is a blank, the blanks that are cut off are
the blanks around the number.
-/

namespace AutomataKit

namespace Text

/-- A run of digits with their values. Single underscores may stand between two digits. -/
inductive Digits : List Char → List Nat → Prop
  | last {c : Char} {value : Nat} (digit : decimalDigit? c = some value) : Digits [c] [value]
  | next {c : Char} {value : Nat} (digit : decimalDigit? c = some value) {rest : List Char}
      {values : List Nat} (more : Digits rest values) : Digits (c :: rest) (value :: values)
  | parted {c : Char} {value : Nat} (digit : decimalDigit? c = some value) {rest : List Char}
      {values : List Nat} (more : Digits rest values) :
      Digits (c :: '_' :: rest) (value :: values)

/-- A number without blanks around it: digits, not too many of them, with at most one sign. -/
inductive Signed : List Char → Int → Prop
  | plain {digits : List Char} {values : List Nat} (run : Digits digits values)
      (short : values.length ≤ digitLimit) : Signed digits (ofDigitValues values)
  | plus {digits : List Char} {values : List Nat} (run : Digits digits values)
      (short : values.length ≤ digitLimit) : Signed ('+' :: digits) (ofDigitValues values)
  | minus {digits : List Char} {values : List Nat} (run : Digits digits values)
      (short : values.length ≤ digitLimit) : Signed ('-' :: digits) (-(ofDigitValues values : Int))

/-- A text holds a number, with any blanks around it. -/
def Denotes (text : String) (value : Int) : Prop :=
  ∃ before number after, text.toList = before ++ number ++ after ∧
    (∀ c ∈ before, isBlank c = true) ∧ (∀ c ∈ after, isBlank c = true) ∧ Signed number value

/-! ## Digits -/

/-- No digit is a blank. -/
theorem isBlank_of_digit {c : Char} {value : Nat} (digit : decimalDigit? c = some value) :
    isBlank c = false := by
  have apart : ∀ start ∈ decimalZeros, ∀ distance < 10,
      isBlank (Char.ofNat (start + distance)) = false := by decide +kernel
  obtain ⟨start, found, -⟩ := Option.map_eq_some_iff.mp digit
  have listed := List.mem_of_find?_eq_some found
  have near := List.find?_some found
  simp only [Bool.and_eq_true, decide_eq_true_eq] at near
  have place : start + (c.toNat - start) = c.toNat := by omega
  have clear := apart start listed (c.toNat - start) (by omega)
  rwa [place, Char.ofNat_toNat] at clear

/-- A digit differs from every character that is none. -/
theorem ne_of_digit {c other : Char} {value : Nat} (digit : decimalDigit? c = some value)
    (noDigit : decimalDigit? other = none) : c ≠ other := by
  rintro rfl
  exact nomatch noDigit.symm.trans digit

namespace Digits

variable {text : List Char} {values : List Nat}

/-- A run of digits begins with one. -/
theorem exists_head (run : Digits text values) :
    ∃ c rest value, text = c :: rest ∧ decimalDigit? c = some value := by
  cases run with
  | last digit => exact ⟨_, _, _, rfl, digit⟩
  | next digit more => exact ⟨_, _, _, rfl, digit⟩
  | parted digit more => exact ⟨_, _, _, rfl, digit⟩

/-- A run of digits ends in one. -/
theorem exists_last (run : Digits text values) :
    ∃ front c value, text = front ++ [c] ∧ decimalDigit? c = some value := by
  induction run with
  | last digit => exact ⟨[], _, _, rfl, digit⟩
  | next digit more ih =>
    obtain ⟨front, c, value, rfl, last⟩ := ih
    exact ⟨_ :: front, c, value, rfl, last⟩
  | parted digit more ih =>
    obtain ⟨front, c, value, rfl, last⟩ := ih
    exact ⟨_ :: '_' :: front, c, value, rfl, last⟩

/-- Before further digits a digit is read by itself: what follows it is no underscore. -/
theorem digitValues?_cons {c : Char} {value : Nat} (digit : decimalDigit? c = some value)
    (run : Digits text values) :
    digitValues? (c :: text) = (digitValues? text).map (value :: ·) := by
  obtain ⟨d, rest, first, rfl, leading⟩ := run.exists_head
  have noBar : d ≠ '_' := ne_of_digit leading (by decide)
  rw [digitValues?.eq_def]
  simp only [digit]

/-- A run of digits is read with their values. -/
theorem digitValues?_eq (run : Digits text values) : digitValues? text = some values := by
  induction run with
  | last digit =>
    unfold digitValues?
    rw [digit]
  | next digit more ih => rw [digitValues?_cons digit more, ih, Option.map_some]
  | parted digit more ih =>
    unfold digitValues?
    rw [digit]
    exact congrArg (Option.map _) ih

end Digits

/-- What is read as digits is a run of them. -/
theorem digits_of_digitValues? {text : List Char} {values : List Nat}
    (read : digitValues? text = some values) : Digits text values := by
  fun_induction digitValues? text generalizing values with
  | case1 => cases read
  | case2 c rest missing => cases read
  | case3 c value digit =>
    cases read
    exact .last digit
  | case4 c value rest digit ih =>
    obtain ⟨later, more, rfl⟩ := Option.map_eq_some_iff.mp read
    exact .parted digit (ih more)
  | case5 c value next rest noBar digit ih =>
    obtain ⟨later, more, rfl⟩ := Option.map_eq_some_iff.mp read
    exact .next digit (ih more)

/-- Reading digits without a sign finds the runs that are not too long. -/
theorem readNat?_eq_some_iff {text : List Char} {value : Nat} :
    readNat? text = some value ↔ ∃ values, Digits text values ∧ values.length ≤ digitLimit ∧
      ofDigitValues values = value := by
  unfold readNat?
  constructor
  · intro read
    split at read
    · rename_i values found
      obtain ⟨short, equal⟩ := Option.ite_none_right_eq_some.mp read
      exact ⟨values, digits_of_digitValues? found, short, Option.some.inj equal⟩
    · cases read
  · rintro ⟨values, run, short, rfl⟩
    rw [run.digitValues?_eq]
    exact if_pos short

/-! ## Signs and blanks -/

/-- A number begins and ends with characters that are no blanks. -/
theorem Signed.ends {number : List Char} {value : Int} (signed : Signed number value) :
    (∃ c rest, number = c :: rest ∧ isBlank c = false) ∧
      ∃ front c, number = front ++ [c] ∧ isBlank c = false := by
  cases signed with
  | plain run short =>
    obtain ⟨c, rest, first, rfl, leading⟩ := run.exists_head
    obtain ⟨front, d, last, split, closing⟩ := run.exists_last
    exact ⟨⟨c, rest, rfl, isBlank_of_digit leading⟩, front, d, split, isBlank_of_digit closing⟩
  | plus run short =>
    obtain ⟨front, d, last, rfl, closing⟩ := run.exists_last
    exact ⟨⟨'+', _, rfl, by decide⟩, '+' :: front, d, rfl, isBlank_of_digit closing⟩
  | minus run short =>
    obtain ⟨front, d, last, rfl, closing⟩ := run.exists_last
    exact ⟨⟨'-', _, rfl, by decide⟩, '-' :: front, d, rfl, isBlank_of_digit closing⟩

/-- Of a text, the blanks in front of its first other character are dropped. -/
theorem dropWhile_isBlank_append {before text : List Char} (blank : ∀ c ∈ before, isBlank c = true)
    {c : Char} (clear : isBlank c = false) :
    (before ++ c :: text).dropWhile isBlank = c :: text := by
  rw [List.dropWhile_append_of_pos blank, List.dropWhile_cons_of_neg (by simp [clear])]

/-- The blanks around a number are cut off, and no more. -/
theorem stripBlanks_append {before number after : List Char} {value : Int}
    (leading : ∀ c ∈ before, isBlank c = true) (trailing : ∀ c ∈ after, isBlank c = true)
    (signed : Signed number value) : stripBlanks (before ++ number ++ after) = number := by
  obtain ⟨⟨c, rest, split, clear⟩, front, d, ended, closed⟩ := signed.ends
  have opened : (before ++ number ++ after).dropWhile isBlank = number ++ after := by
    rw [split, List.append_assoc, List.cons_append]
    exact dropWhile_isBlank_append leading clear
  have cut : (number ++ after).reverse.dropWhile isBlank = number.reverse := by
    rw [List.reverse_append, ended, List.reverse_append, List.reverse_singleton,
      List.singleton_append]
    exact dropWhile_isBlank_append (fun c member => trailing c (List.mem_reverse.mp member)) closed
  rw [stripBlanks, opened, cut, List.reverse_reverse]

/-- What is cut off is blank. -/
theorem exists_blanks (text : List Char) :
    ∃ before after, text = before ++ stripBlanks text ++ after ∧
      (∀ c ∈ before, isBlank c = true) ∧ ∀ c ∈ after, isBlank c = true := by
  refine ⟨text.takeWhile isBlank,
    ((text.dropWhile isBlank).reverse.takeWhile isBlank).reverse, ?_, ?_, ?_⟩
  · rw [stripBlanks, List.append_assoc, ← List.reverse_append, List.takeWhile_append_dropWhile,
      List.reverse_reverse, List.takeWhile_append_dropWhile]
  · exact fun c member => List.all_eq_true.mp List.all_takeWhile c member
  · exact fun c member => List.all_eq_true.mp List.all_takeWhile c (List.mem_reverse.mp member)

/-- What is read is a number between blanks. -/
theorem signed_of_readInt? {text : String} {value : Int} (read : readInt? text = some value) :
    Signed (stripBlanks text.toList) value := by
  unfold readInt? at read
  split at read
  · rename_i digits cut
    rw [cut]
    cases found : readNat? digits with
    | none =>
      rw [found] at read
      cases read
    | some size =>
      rw [found] at read
      cases read
      obtain ⟨values, run, short, rfl⟩ := readNat?_eq_some_iff.mp found
      exact .minus run short
  · rename_i digits cut
    rw [cut]
    obtain ⟨size, found, rfl⟩ := Option.map_eq_some_iff.mp read
    obtain ⟨values, run, short, rfl⟩ := readNat?_eq_some_iff.mp found
    exact .plus run short
  · obtain ⟨size, found, rfl⟩ := Option.map_eq_some_iff.mp read
    obtain ⟨values, run, short, rfl⟩ := readNat?_eq_some_iff.mp found
    exact .plain run short

/-- A number between blanks is read. -/
theorem readInt?_of_signed {text : String} {value : Int}
    (signed : Signed (stripBlanks text.toList) value) : readInt? text = some value := by
  unfold readInt?
  generalize stripBlanks text.toList = number at signed
  have found {digits : List Char} {values : List Nat} (run : Digits digits values)
      (short : values.length ≤ digitLimit) : readNat? digits = some (ofDigitValues values) :=
    readNat?_eq_some_iff.mpr ⟨values, run, short, rfl⟩
  cases signed with
  | minus run short =>
    simp only [found run short]
    rfl
  | plus run short =>
    simp only [found run short]
    rfl
  | plain run short =>
    obtain ⟨c, rest, first, rfl, leading⟩ := run.exists_head
    split
    · rename_i split
      exact absurd (List.cons.inj split).1 (ne_of_digit leading (by decide))
    · rename_i split
      exact absurd (List.cons.inj split).1 (ne_of_digit leading (by decide))
    · rw [found run short]
      rfl

/-- **Reading finds the numbers that are written in a text.** -/
theorem readInt?_eq_some_iff {text : String} {value : Int} :
    readInt? text = some value ↔ Denotes text value := by
  constructor
  · intro read
    obtain ⟨before, after, split, leading, trailing⟩ := exists_blanks text.toList
    exact ⟨before, _, after, split, leading, trailing, signed_of_readInt? read⟩
  · rintro ⟨before, number, after, split, leading, trailing, signed⟩
    apply readInt?_of_signed
    rwa [split, stripBlanks_append leading trailing signed]

end Text

end AutomataKit
