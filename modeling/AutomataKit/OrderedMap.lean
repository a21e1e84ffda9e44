/-!
# Maps that keep their insertion order

An `OrderedMap` is a finite map given by its list of entries. Inserting under a new key appends
an entry; inserting under a key that is present replaces the value where it stands. Keys are
therefore distinct, and the order of the entries is the order in which their keys were first
inserted.

Look-up is pinned down by `OrderedMap.find?_insert` and the order of the keys by
`OrderedMap.keys_insert`.
-/

namespace AutomataKit

universe u v

/-- A finite map whose entries stand in the order in which their keys were first inserted. -/
structure OrderedMap (κ : Type u) (α : Type v) where
  entries : List (κ × α)
  keys_nodup : (entries.map Prod.fst).Nodup

namespace OrderedMap

variable {κ : Type u} {α : Type v}

/-- The map without entries. -/
def empty : OrderedMap κ α := ⟨[], List.Pairwise.nil⟩

instance : Inhabited (OrderedMap κ α) := ⟨empty⟩

/-- The keys in the order in which they were first inserted. -/
def keys (map : OrderedMap κ α) : List κ := map.entries.map Prod.fst

/-- The number of entries. -/
def size (map : OrderedMap κ α) : Nat := map.entries.length

variable [DecidableEq κ]

/-- The value stored under a key. -/
def find? (map : OrderedMap κ α) (key : κ) : Option α := map.entries.lookup key

/-- Put a value into a list of entries: in place of the entry with this key, or at the end. -/
def assign (key : κ) (value : α) : List (κ × α) → List (κ × α)
  | [] => [(key, value)]
  | entry :: rest =>
    if entry.1 = key then (key, value) :: rest else entry :: assign key value rest

/-- Assigning a value adds its key at the end, unless the key is there. -/
theorem map_fst_assign (key : κ) (value : α) (entries : List (κ × α)) :
    (assign key value entries).map Prod.fst =
      if key ∈ entries.map Prod.fst then entries.map Prod.fst
      else entries.map Prod.fst ++ [key] := by
  induction entries with
  | nil => simp [assign]
  | cons entry rest ih =>
    by_cases same : entry.1 = key
    · simp [assign, same]
    · have other : key ≠ entry.1 := fun equal => same equal.symm
      simp only [assign, same, ↓reduceIte, List.map_cons, ih, List.mem_cons, other, false_or]
      split <;> simp

/-- Assigning a value keeps the keys distinct. -/
theorem nodup_map_fst_assign (key : κ) (value : α) {entries : List (κ × α)}
    (distinct : (entries.map Prod.fst).Nodup) :
    ((assign key value entries).map Prod.fst).Nodup := by
  rw [map_fst_assign]
  split
  · exact distinct
  · rename_i absent
    refine List.nodup_append.mpr ⟨distinct, by simp, ?_⟩
    intro present member appended single equal
    rw [List.mem_singleton.mp single] at equal
    exact absent (equal ▸ member)

/-- Store a value under a key. A value that is already stored there is replaced where it stands. -/
def insert (map : OrderedMap κ α) (key : κ) (value : α) : OrderedMap κ α :=
  ⟨assign key value map.entries, nodup_map_fst_assign key value map.keys_nodup⟩

/-- The map built by inserting a list of entries from left to right. -/
def ofList (entries : List (κ × α)) : OrderedMap κ α :=
  entries.foldl (fun map entry => map.insert entry.1 entry.2) empty

/-- A new key goes to the end; a key that is present keeps its place. -/
theorem keys_insert (map : OrderedMap κ α) (key : κ) (value : α) :
    (map.insert key value).keys = if key ∈ map.keys then map.keys else map.keys ++ [key] :=
  map_fst_assign key value map.entries

/-- Looking a key up in a list of entries stops at the first entry that has it. -/
theorem lookup_cons_eq_ite (query : κ) (entry : κ × α) (rest : List (κ × α)) :
    (entry :: rest).lookup query =
      if query = entry.1 then some entry.2 else rest.lookup query := by
  obtain ⟨key, value⟩ := entry
  rw [List.lookup_cons]
  by_cases asked : query = key
  · simp [asked]
  · rw [beq_false_of_ne asked]
    simp [asked]

/-- Changing all values changes the one that is looked up. -/
theorem lookup_map_snd {β : Type v} (write : α → β) (key : κ) (entries : List (κ × α)) :
    (entries.map fun entry => (entry.1, write entry.2)).lookup key =
      (entries.lookup key).map write := by
  induction entries with
  | nil => rfl
  | cons entry rest ih =>
    rw [List.map_cons, lookup_cons_eq_ite, lookup_cons_eq_ite, ih]
    split <;> rfl

/-- Keeping the entries with some of the keys keeps what is stored under these. -/
theorem lookup_filter (keep : κ → Bool) (key : κ) (entries : List (κ × α)) :
    (entries.filter fun entry => keep entry.1).lookup key =
      if keep key then entries.lookup key else none := by
  induction entries with
  | nil => simp
  | cons entry rest ih =>
    rw [List.filter_cons, lookup_cons_eq_ite]
    by_cases asked : key = entry.1
    · cases kept : keep entry.1
      · simp only [asked, kept, Bool.false_eq_true, ↓reduceIte] at ih ⊢
        exact ih
      · simp only [asked, kept, ↓reduceIte, lookup_cons_eq_ite]
    · cases kept : keep entry.1
      · simp only [asked, Bool.false_eq_true, ↓reduceIte, ih]
      · simp only [asked, ↓reduceIte, lookup_cons_eq_ite, ih]

/-- After an assignment its key has its value, and the other keys have theirs. -/
theorem lookup_assign (key query : κ) (value : α) (entries : List (κ × α)) :
    (assign key value entries).lookup query =
      if query = key then some value else entries.lookup query := by
  induction entries with
  | nil => simp only [assign, lookup_cons_eq_ite]
  | cons entry rest ih =>
    by_cases same : entry.1 = key
    · simp only [assign, same, ↓reduceIte, lookup_cons_eq_ite]
      split <;> rfl
    · simp only [assign, same, ↓reduceIte, lookup_cons_eq_ite, ih]
      by_cases asked : query = key
      · have other : key ≠ entry.1 := fun equal => same equal.symm
        simp only [asked, other, ↓reduceIte]
      · simp only [asked, ↓reduceIte]

/-- After an insertion the key has the new value, and every other key the value it had. -/
@[simp] theorem find?_insert (map : OrderedMap κ α) (key query : κ) (value : α) :
    (map.insert key value).find? query = if query = key then some value else map.find? query :=
  lookup_assign key query value map.entries

@[simp] theorem find?_empty (query : κ) : (empty : OrderedMap κ α).find? query = none := rfl

/-- With distinct keys, looking a key up finds the entry that has it. -/
theorem lookup_eq_some_iff_mem {entries : List (κ × α)}
    (distinct : (entries.map Prod.fst).Nodup) {key : κ} {value : α} :
    entries.lookup key = some value ↔ (key, value) ∈ entries := by
  induction entries with
  | nil => simp
  | cons entry rest ih =>
    obtain ⟨absent, distinct⟩ := List.nodup_cons.mp distinct
    rw [lookup_cons_eq_ite, List.mem_cons, Prod.ext_iff]
    by_cases same : key = entry.1
    · have elsewhere : (key, value) ∉ rest := fun member =>
        absent (same ▸ List.mem_map_of_mem member)
      simp only [same, ↓reduceIte, Option.some.injEq, true_and]
      exact ⟨fun found => .inl found.symm, fun either => either.elim Eq.symm fun member =>
        absurd (same ▸ member) elsewhere⟩
    · simp only [same, ↓reduceIte, false_and, false_or]
      exact ih distinct

/-- A value is stored under a key exactly when the two are an entry of the map. -/
theorem find?_eq_some_iff {map : OrderedMap κ α} {key : κ} {value : α} :
    map.find? key = some value ↔ (key, value) ∈ map.entries :=
  lookup_eq_some_iff_mem map.keys_nodup

/-- Putting a value under a new key appends an entry. -/
theorem assign_of_not_mem {key : κ} (value : α) {entries : List (κ × α)}
    (absent : key ∉ entries.map Prod.fst) :
    assign key value entries = entries ++ [(key, value)] := by
  induction entries with
  | nil => rfl
  | cons entry rest ih =>
    rw [List.map_cons, List.mem_cons, not_or] at absent
    rw [assign, if_neg (Ne.symm absent.1), ih absent.2]
    rfl

/-- Inserting entries with new and distinct keys appends them. -/
theorem entries_foldl_insert (map : OrderedMap κ α) {entries : List (κ × α)}
    (distinct : ((map.entries ++ entries).map Prod.fst).Nodup) :
    (entries.foldl (fun map entry => map.insert entry.1 entry.2) map).entries =
      map.entries ++ entries := by
  induction entries generalizing map with
  | nil => exact (List.append_nil _).symm
  | cons entry rest ih =>
    have absent : entry.1 ∉ map.entries.map Prod.fst := by
      intro member
      rw [List.map_append, List.nodup_append] at distinct
      exact distinct.2.2 _ member _ List.mem_cons_self rfl
    have inserted : (map.insert entry.1 entry.2).entries = map.entries ++ [entry] :=
      assign_of_not_mem entry.2 absent
    have shifted : (map.insert entry.1 entry.2).entries ++ rest = map.entries ++ entry :: rest := by
      rw [inserted, List.append_assoc, List.singleton_append]
    rw [List.foldl_cons, ih _ (shifted ▸ distinct), shifted]

/-- Inserting entries with distinct keys gives the map with these entries. -/
theorem ofList_eq_of_nodup {entries : List (κ × α)} (distinct : (entries.map Prod.fst).Nodup) :
    ofList entries = ⟨entries, distinct⟩ := by
  have same : (ofList entries).entries = entries := entries_foldl_insert empty distinct
  generalize ofList entries = map at same
  cases map
  cases same
  rfl

/-! ## Entries with repeated keys -/

/-- Inserting under other keys leaves what is stored under a key. -/
theorem find?_foldl_insert_of_not_mem (map : OrderedMap κ α) {entries : List (κ × α)} {key : κ}
    (absent : key ∉ entries.map Prod.fst) :
    (entries.foldl (fun map entry => map.insert entry.1 entry.2) map).find? key =
      map.find? key := by
  induction entries generalizing map with
  | nil => rfl
  | cons entry rest ih =>
    rw [List.map_cons, List.mem_cons, not_or] at absent
    rw [List.foldl_cons, ih _ absent.2, find?_insert, if_neg absent.1]

/-- Of several entries with the same key the last counts. -/
theorem find?_ofList_append_cons (before : List (κ × α)) {key : κ} (value : α)
    {after : List (κ × α)} (last : key ∉ after.map Prod.fst) :
    (ofList (before ++ (key, value) :: after)).find? key = some value := by
  unfold ofList
  rw [List.foldl_append, List.foldl_cons, find?_foldl_insert_of_not_mem _ last, find?_insert,
    if_pos rfl]

/-- The keys after several insertions are the old and the inserted ones. -/
theorem mem_keys_foldl_insert (map : OrderedMap κ α) (entries : List (κ × α)) (key : κ) :
    key ∈ (entries.foldl (fun map entry => map.insert entry.1 entry.2) map).keys ↔
      key ∈ map.keys ∨ key ∈ entries.map Prod.fst := by
  induction entries generalizing map with
  | nil => exact (or_iff_left List.not_mem_nil).symm
  | cons entry rest ih =>
    have inserted : key ∈ (map.insert entry.1 entry.2).keys ↔ key ∈ map.keys ∨ key = entry.1 := by
      rw [keys_insert]
      split
      · rename_i present
        exact (or_iff_left_of_imp fun same => same ▸ present).symm
      · rw [List.mem_append, List.mem_singleton]
    rw [List.foldl_cons, ih, inserted, List.map_cons, List.mem_cons, or_assoc]

/-- The keys of a map built from entries are the keys of the entries. -/
theorem mem_keys_ofList {entries : List (κ × α)} {key : κ} :
    key ∈ (ofList entries).keys ↔ key ∈ entries.map Prod.fst := by
  unfold ofList
  rw [mem_keys_foldl_insert]
  exact or_iff_right List.not_mem_nil

end OrderedMap

end AutomataKit
