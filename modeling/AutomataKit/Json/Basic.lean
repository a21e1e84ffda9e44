import AutomataKit.Binary64.Basic
import AutomataKit.OrderedMap

/-!
# JSON values

The values of the data format, with two refinements: the members of an object keep their order,
and whole numbers are told apart from floating-point ones.

Values that can serve as names are compared by `Json.Key`. Two numbers are the same name when
they are equal as numbers, whichever way they are written, and a truth value counts as one or
zero; lists and objects are no names.
-/

namespace AutomataKit

/-- A JSON value. -/
inductive Json where
  | null
  | bool (value : Bool)
  | int (value : Int)
  | float (value : Binary64)
  | str (text : String)
  | arr (items : List Json)
  | obj (members : List (String × Json))
  deriving Inhabited

namespace Json

/-- The text of a string. -/
def text? : Json → Option String
  | str text => some text
  | _ => none

/-- The elements of a list; any other value has none. -/
def items : Json → List Json
  | arr items => items
  | _ => []

/-- The members of an object; any other value has none. -/
def members : Json → List (String × Json)
  | obj members => members
  | _ => []

/-- The value of the member with a given name, among members; only a string can be such a name. -/
def member? (members : List (String × Json)) (name : Json) : Option Json :=
  name.text?.bind fun text => members.lookup text

/-- The list of strings with the given texts. -/
def ofTexts (texts : List String) : Json := arr (texts.map str)

/-- The object with the entries of a map, whose values are written in a given way. -/
def ofMap {α : Type} (write : α → Json) (map : OrderedMap String α) : Json :=
  obj (map.entries.map fun entry => (entry.1, write entry.2))

/-- What a value is as a name. Numbers are counted in units of `2 ^ -1074`, of which every finite
number is a whole multiple. -/
inductive Key where
  | null
  | number (units : Int)
  | infinite (negative : Bool)
  | notANumber
  | text (text : String)
  deriving DecidableEq, Repr

/-- The key of a whole number. -/
def Key.ofInt (value : Int) : Key := .number (value * (Binary64.unitsPerOne : Int))

/-- The value as a name; lists and objects are none. -/
def key? : Json → Option Key
  | null => some .null
  | bool value => some (.ofInt value.toInt)
  | int value => some (.ofInt value)
  | float .notANumber => some .notANumber
  | float (.infinite negative) => some (.infinite negative)
  | float (.finite negative units) =>
    some (.number (if negative then -(units : Int) else (units : Int)))
  | str text => some (.text text)
  | arr _ => none
  | obj _ => none

/-- The elements of a list are names, no two of them the same. -/
def Distinct (items : List Json) : Prop :=
  (∀ value ∈ items, (key? value).isSome) ∧ (items.map key?).Nodup

instance (items : List Json) : Decidable (Distinct items) :=
  inferInstanceAs (Decidable (_ ∧ _))

/-- A value is a name that occurs among the given ones. -/
def Among (value : Json) (items : List Json) : Prop :=
  (key? value).isSome ∧ key? value ∈ items.map key?

instance (value : Json) (items : List Json) : Decidable (Among value items) :=
  inferInstanceAs (Decidable (_ ∧ _))

/-- Whether a value stands for nothing: null, false, a zero, or an empty text, list or object. -/
def isBlank : Json → Bool
  | null => true
  | bool value => !value
  | int value => value == 0
  | float value => value.isZero
  | str text => text.isEmpty
  | arr items => items.isEmpty
  | obj members => members.isEmpty

/-- Only a string has a text. -/
theorem text?_eq_some_iff {value : Json} {text : String} :
    value.text? = some text ↔ value = str text := by
  cases value <;> simp [text?]

@[simp] theorem text?_str (text : String) : (str text).text? = some text := rfl

theorem member?_str (members : List (String × Json)) (name : String) :
    member? members (str name) = members.lookup name :=
  rfl

/-- Looking a member up succeeds exactly for a string under which a value is stored. -/
theorem member?_eq_some_iff {members : List (String × Json)} {name value : Json} :
    member? members name = some value ↔
      ∃ text, name = str text ∧ members.lookup text = some value := by
  simp [member?, Option.bind_eq_some_iff, text?_eq_some_iff]

@[simp] theorem filterMap_text?_map_str (texts : List String) :
    (texts.map str).filterMap text? = texts := by
  simp [List.filterMap_map, Function.comp_def]

/-- A list of values all of which are strings is the list of their texts. -/
theorem eq_map_str {items : List Json} (strings : ∀ value ∈ items, ∃ text, value = str text) :
    items = (items.filterMap text?).map str := by
  induction items with
  | nil => rfl
  | cons value rest ih =>
    obtain ⟨text, rfl⟩ := strings value (by simp)
    simp only [List.filterMap_cons, text?_str, List.map_cons, List.cons.injEq, true_and]
    exact ih fun other member => strings other (List.mem_cons_of_mem _ member)

@[simp] theorem key?_str (text : String) : key? (str text) = some (.text text) := rfl

theorem Key.ofInt_ne_text (value : Int) (text : String) : Key.ofInt value ≠ .text text := nofun

/-- A name that is a text is a string. -/
theorem eq_str_of_key? {value : Json} {text : String} (named : key? value = some (.text text)) :
    value = str text := by
  cases value with
  | null => cases named
  | bool value => exact absurd (Option.some.inj named) (Key.ofInt_ne_text _ _)
  | int value => exact absurd (Option.some.inj named) (Key.ofInt_ne_text _ _)
  | float value => cases value <;> cases named
  | str other => cases named; rfl
  | arr items => cases named
  | obj members => cases named

/-- Among strings, being one of the names is being one of the strings. -/
theorem str_among_iff (text : String) (texts : List String) :
    Among (str text) (texts.map str) ↔ text ∈ texts := by
  simp [Among, Function.comp_def]

/-- What is one of the names of strings is one of the strings. -/
theorem exists_of_among {value : Json} {texts : List String}
    (member : Among value (texts.map str)) : ∃ text ∈ texts, value = str text := by
  obtain ⟨-, named⟩ := member
  simp only [List.map_map, List.mem_map, Function.comp_apply, key?_str] at named
  obtain ⟨text, present, named⟩ := named
  exact ⟨text, present, eq_str_of_key? named.symm⟩

/-- A list of strings holds distinct names exactly when no string occurs twice. -/
theorem distinct_strings_iff (texts : List String) :
    Distinct (texts.map str) ↔ texts.Nodup := by
  constructor
  · rintro ⟨-, distinct⟩
    rw [List.map_map] at distinct
    refine (List.pairwise_map.mp distinct).imp ?_
    intro left right different equal
    exact different (by rw [equal])
  · intro distinct
    refine ⟨by simp, ?_⟩
    rw [List.map_map]
    refine List.pairwise_map.mpr (distinct.imp ?_)
    intro left right different
    simpa using different

end Json

end AutomataKit
