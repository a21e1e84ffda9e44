import AutomataKit.Json.Basic
import Mathlib.Algebra.Order.Field.Rat
import Mathlib.Data.Rat.Cast.Order

/-!
# When two values are the same name

Names are compared by their keys. Said without keys: two numbers are the same name when they are
equal as rational numbers, where a truth value is one or zero; apart from numbers, a value is the
same name as itself only, and lists and objects are no names (`Json.equals_iff_key?`).
-/

namespace AutomataKit

namespace Json

/-- The value is neither a list nor an object. -/
def IsScalar : Json → Prop
  | arr _ => False
  | obj _ => False
  | _ => True

/-- The number that a value stands for, exactly. -/
def number? : Json → Option ℚ
  | bool value => some (if value then 1 else 0)
  | int value => some value
  | float (.finite negative units) =>
    some ((if negative then -(units : ℚ) else units) / 2 ^ Binary64.unitExponent)
  | _ => none

/-- Two scalar values are equal. The values that are no number are one value. -/
inductive Equals : Json → Json → Prop
  | null : Equals null null
  | number (value : ℚ) {left right : Json} (first : left.number? = some value)
      (second : right.number? = some value) : Equals left right
  | infinite (negative : Bool) : Equals (float (.infinite negative)) (float (.infinite negative))
  | notANumber : Equals (float .notANumber) (float .notANumber)
  | str (text : String) : Equals (str text) (str text)

/-- A value can be a name unless it is a list or an object. -/
theorem isSome_key?_iff (value : Json) : value.key?.isSome ↔ value.IsScalar := by
  cases value with
  | float value => cases value <;> simp [key?, IsScalar]
  | null | bool value | int value | str text | arr items | obj members => simp [key?, IsScalar]

/-- The number in a key, which counts units. -/
def Key.number? : Key → Option ℚ
  | .number units => some (units / 2 ^ Binary64.unitExponent)
  | _ => none

/-- One is made of a power of two of units. -/
theorem cast_unitsPerOne : (Binary64.unitsPerOne : ℚ) = 2 ^ Binary64.unitExponent := by
  unfold Binary64.unitsPerOne
  generalize Binary64.unitExponent = exponent
  rw [Nat.pow_eq, Nat.cast_pow, Nat.cast_ofNat]

/-- The key of a whole number has this number in it. -/
theorem Key.number?_ofInt (value : Int) : (Key.ofInt value).number? = some (value : ℚ) := by
  have nonzero : (2 : ℚ) ^ Binary64.unitExponent ≠ 0 := pow_ne_zero _ two_ne_zero
  change some (((value * (Binary64.unitsPerOne : Int) : Int) : ℚ) / _) = _
  rw [Int.cast_mul, Int.cast_natCast, cast_unitsPerOne, mul_div_cancel_right₀ _ nonzero]

/-- A value stands for the number in its key. -/
theorem number?_eq_bind (value : Json) : value.number? = value.key?.bind Key.number? := by
  cases value with
  | bool value =>
    refine Eq.trans ?_ (Key.number?_ofInt value.toInt).symm
    cases value <;> simp [number?]
  | int value => exact (Key.number?_ofInt value).symm
  | float value =>
    cases value with
    | finite negative units => cases negative <;> simp [number?, key?, Key.number?]
    | infinite negative | notANumber => rfl
  | null | str text | arr items | obj members => rfl

/-- A number has one key. -/
theorem Key.eq_of_number? {first second : Key} {value : ℚ} (left : first.number? = some value)
    (right : second.number? = some value) : first = second := by
  have nonzero : (2 : ℚ) ^ Binary64.unitExponent ≠ 0 := pow_ne_zero _ two_ne_zero
  cases first with
  | number units =>
    cases second with
    | number other =>
      have same := Option.some.inj (left.trans right.symm)
      rw [div_left_inj' nonzero, Int.cast_inj] at same
      rw [same]
    | null | infinite negative | notANumber | text text => cases right
  | null | infinite negative | notANumber | text text => cases left

theorem eq_null_of_key? {value : Json} (named : value.key? = some .null) : value = null := by
  cases value with
  | null => rfl
  | float value => cases value <;> cases named
  | bool value | int value | str text | arr items | obj members => cases named

theorem eq_float_of_key?_infinite {value : Json} {negative : Bool}
    (named : value.key? = some (.infinite negative)) : value = float (.infinite negative) := by
  cases value with
  | float value => cases value <;> cases named; rfl
  | null | bool value | int value | str text | arr items | obj members => cases named

theorem eq_float_of_key?_notANumber {value : Json} (named : value.key? = some .notANumber) :
    value = float .notANumber := by
  cases value with
  | float value => cases value <;> cases named; rfl
  | null | bool value | int value | str text | arr items | obj members => cases named

/-- **Equal values have one key.** -/
theorem equals_iff_key? (left right : Json) :
    left.Equals right ↔ ∃ key, left.key? = some key ∧ right.key? = some key := by
  constructor
  · intro equals
    cases equals with
    | null => exact ⟨_, rfl, rfl⟩
    | infinite negative => exact ⟨_, rfl, rfl⟩
    | notANumber => exact ⟨_, rfl, rfl⟩
    | str text => exact ⟨_, rfl, rfl⟩
    | number value first second =>
      rw [number?_eq_bind, Option.bind_eq_some_iff] at first second
      obtain ⟨key, leftKey, leftNumber⟩ := first
      obtain ⟨other, rightKey, rightNumber⟩ := second
      obtain rfl := Key.eq_of_number? leftNumber rightNumber
      exact ⟨key, leftKey, rightKey⟩
  · rintro ⟨key, leftKey, rightKey⟩
    cases key with
    | null =>
      rw [eq_null_of_key? leftKey, eq_null_of_key? rightKey]
      exact .null
    | number units =>
      refine .number (units / 2 ^ Binary64.unitExponent) ?_ ?_
      · rw [number?_eq_bind, leftKey]
        rfl
      · rw [number?_eq_bind, rightKey]
        rfl
    | infinite negative =>
      rw [eq_float_of_key?_infinite leftKey, eq_float_of_key?_infinite rightKey]
      exact .infinite negative
    | notANumber =>
      rw [eq_float_of_key?_notANumber leftKey, eq_float_of_key?_notANumber rightKey]
      exact .notANumber
    | text text =>
      rw [eq_str_of_key? leftKey, eq_str_of_key? rightKey]
      exact .str text

/-- A value is among names when it equals one of them. -/
theorem among_iff_equals (value : Json) (items : List Json) :
    value.Among items ↔ ∃ name ∈ items, value.Equals name := by
  simp only [Among, List.mem_map, equals_iff_key?]
  constructor
  · rintro ⟨named, name, member, same⟩
    obtain ⟨key, found⟩ := Option.isSome_iff_exists.mp named
    exact ⟨name, member, key, found, same.trans found⟩
  · rintro ⟨name, member, key, found, same⟩
    exact ⟨Option.isSome_of_eq_some found, name, member, same.trans found.symm⟩

/-- Names are distinct when no two of them are equal. -/
theorem distinct_iff_equals (items : List Json) :
    Distinct items ↔
      (∀ value ∈ items, value.IsScalar) ∧ items.Pairwise fun left right => ¬ left.Equals right := by
  unfold Distinct
  simp only [isSome_key?_iff]
  refine and_congr_right fun scalars => ?_
  rw [List.Nodup, List.pairwise_map]
  refine List.Pairwise.iff_of_mem fun {left right} member _ => not_congr ?_
  rw [equals_iff_key?]
  obtain ⟨key, found⟩ := Option.isSome_iff_exists.mp ((isSome_key?_iff left).mpr
    (scalars left member))
  constructor
  · intro same
    exact ⟨key, found, same.symm.trans found⟩
  · rintro ⟨other, leftKey, rightKey⟩
    exact leftKey.trans rightKey.symm

end Json

end AutomataKit
