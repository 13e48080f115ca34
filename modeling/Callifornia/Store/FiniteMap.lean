import Mathlib.Data.Finmap
import Mathlib.Data.List.MinMax

/-! # Finite maps

Lookup rules for Mathlib's `Finmap` over a constant value type, the number of entries whose value
satisfies a predicate, and the least item of a list.
-/

namespace FiniteMap

variable {Key Value : Type} [DecidableEq Key]

/-- A finite partial function. -/
abbrev Map (Key Value : Type) := Finmap fun _ : Key => Value

/-- The list enumerates the set without repetition. -/
def Enumerates (items : List Key) (set : Finset Key) : Prop :=
  items.Nodup ∧ items.toFinset = set

instance (items : List Key) (set : Finset Key) : Decidable (Enumerates items set) :=
  inferInstanceAs (Decidable (_ ∧ _))

/-- The first of the items with the least key. The order of the integers is named because the one
that is inferred need not compute. -/
def minBy {Item : Type} (key : Item → ℤ) (items : List Item) : Option Item :=
  @List.argmin Item ℤ Int.instLinearOrder.toPreorder _ key items

/-- A list that enumerates a set has its elements. -/
theorem Enumerates.mem_iff {items : List Key} {set : Finset Key} (all : Enumerates items set)
    {key : Key} : key ∈ items ↔ key ∈ set := by
  rw [← all.2, List.mem_toFinset]

/-- An entry is set. -/
theorem lookup_insert_if (map : Map Key Value) (key query : Key) (value : Value) :
    (map.insert key value).lookup query = if query = key then some value else map.lookup query := by
  by_cases same : query = key
  · subst same
    simp only [Finmap.lookup_insert, ↓reduceIte]
  · simp only [Finmap.lookup_insert_of_ne _ same, same, ↓reduceIte]

/-- An entry is taken out. -/
theorem lookup_erase_if (map : Map Key Value) (key query : Key) :
    (map.erase key).lookup query = if query = key then none else map.lookup query := by
  by_cases same : query = key
  · subst same
    simp only [Finmap.lookup_erase, ↓reduceIte]
  · simp only [Finmap.lookup_erase_ne same, same, ↓reduceIte]

/-- A map with an entry is not empty. -/
theorem insert_ne_empty (map : Map Key Value) (key : Key) (value : Value) :
    map.insert key value ≠ ∅ := by
  intro empty
  have found : (map.insert key value).lookup key = some value := Finmap.lookup_insert map
  rw [empty, Finmap.lookup_empty] at found
  cases found

/-- An enumeration of the keys yields one of the entries. -/
theorem Enumerates.entries {keys : List Key} {map : Map Key Value}
    (all : Enumerates keys map.keys) :
    ((keys.filterMap fun key => (map.lookup key).map fun value => (key, value) :
      List (Key × Value)) : Multiset (Key × Value)) =
      map.entries.map fun entry => (entry.1, entry.2) := by
  refine Multiset.Nodup.ext ?_ ?_ |>.mpr fun pair => ?_
  · refine Multiset.coe_nodup.mpr (all.1.filterMap fun first second pair left right => ?_)
    obtain ⟨_, -, rfl⟩ := Option.map_eq_some_iff.mp left
    obtain ⟨_, -, same⟩ := Option.map_eq_some_iff.mp right
    exact (congrArg Prod.fst same).symm
  · refine (Multiset.nodup_keys.mpr map.nodupKeys).of_map |>.map fun first second same => ?_
    obtain ⟨key, value⟩ := first
    obtain ⟨other, stored⟩ := second
    cases same
    rfl
  · obtain ⟨key, value⟩ := pair
    rw [Multiset.mem_coe, List.mem_filterMap, Multiset.mem_map]
    constructor
    · intro ⟨other, _, found⟩
      obtain ⟨stored, found, same⟩ := Option.map_eq_some_iff.mp found
      cases same
      exact ⟨⟨key, value⟩, Finmap.lookup_eq_some_iff.mp found, rfl⟩
    · intro ⟨⟨other, stored⟩, member, same⟩
      cases same
      have found : map.lookup other = some stored := Finmap.lookup_eq_some_iff.mpr member
      refine ⟨other, all.mem_iff.mpr ?_, by rw [found]; rfl⟩
      exact Finmap.mem_keys.mpr (Finmap.mem_of_lookup_eq_some found)

/-- Replace the value of a present key; an absent key stays absent. -/
def adjust (map : Map Key Value) (key : Key) (change : Value → Value) : Map Key Value :=
  match map.lookup key with
  | some value => map.insert key (change value)
  | none => map

/-- An entry that is there is changed. -/
theorem lookup_adjust (map : Map Key Value) (key query : Key) (change : Value → Value) :
    (adjust map key change).lookup query =
      if query = key then (map.lookup key).map change else map.lookup query := by
  unfold adjust
  cases found : map.lookup key with
  | some value => simp only [lookup_insert_if, Option.map_some]
  | none =>
      by_cases same : query = key
      · subst same
        simp only [found, ↓reduceIte, Option.map_none]
      · simp only [same, ↓reduceIte]

/-- Changing an entry adds no key. -/
@[simp] theorem mem_adjust {map : Map Key Value} {key query : Key} {change : Value → Value} :
    query ∈ adjust map key change ↔ query ∈ map := by
  simp only [Finmap.mem_iff, lookup_adjust]
  by_cases same : query = key
  · subst same
    cases map.lookup query <;> simp
  · simp only [same, ↓reduceIte]

/-- Adjusting several keys by a change that is done once it is done. -/
theorem lookup_foldl_adjust {change : Value → Value}
    (settled : ∀ value, change (change value) = change value) (keys : List Key)
    (map : Map Key Value) (query : Key) :
    (keys.foldl (fun map key => adjust map key change) map).lookup query =
      if query ∈ keys then (map.lookup query).map change else map.lookup query := by
  induction keys generalizing map with
  | nil => simp
  | cons key keys ih =>
      rw [List.foldl_cons, ih, lookup_adjust]
      by_cases same : query = key
      · subst same
        simp only [↓reduceIte, List.mem_cons, true_or]
        cases map.lookup query with
        | none => simp
        | some value => simp [settled]
      · simp only [same, ↓reduceIte, List.mem_cons, false_or]

/-- Keep the entries that satisfy a predicate. -/
def filter (keep : Key → Value → Prop) [∀ key value, Decidable (keep key value)]
    (map : Map Key Value) : Map Key Value where
  entries := map.entries.filter fun entry => keep entry.1 entry.2
  nodupKeys := by
    rw [← Multiset.nodup_keys]
    exact Multiset.nodup_of_le (Multiset.map_le_map (Multiset.filter_le _ _))
      (Multiset.nodup_keys.mpr map.nodupKeys)

/-- The entries that are kept. -/
theorem lookup_filter_eq_some {keep : Key → Value → Prop} [∀ key value, Decidable (keep key value)]
    {map : Map Key Value} {key : Key} {value : Value} :
    (filter keep map).lookup key = some value ↔ map.lookup key = some value ∧ keep key value := by
  rw [Finmap.lookup_eq_some_iff, Finmap.lookup_eq_some_iff]
  exact Multiset.mem_filter

/-- An entry is kept if it is to be. -/
theorem lookup_filter (keep : Key → Value → Prop) [∀ key value, Decidable (keep key value)]
    (map : Map Key Value) (key : Key) :
    (filter keep map).lookup key = (map.lookup key).filter (keep key ·) := by
  apply Option.ext
  intro value
  rw [lookup_filter_eq_some, Option.filter_eq_some_iff, decide_eq_true_eq]

/-- Change every value. -/
def mapValues (change : Value → Value) (map : Map Key Value) : Map Key Value where
  entries := map.entries.map fun entry => ⟨entry.1, change entry.2⟩
  nodupKeys := by
    have same : (map.entries.map fun entry => (⟨entry.1, change entry.2⟩ : Σ _, Value)).keys =
        map.entries.keys := Multiset.map_map _ _ _
    rw [← Multiset.nodup_keys, same]
    exact Multiset.nodup_keys.mpr map.nodupKeys

/-- Every value is changed. -/
theorem lookup_mapValues (change : Value → Value) (map : Map Key Value) (key : Key) :
    (mapValues change map).lookup key = (map.lookup key).map change := by
  apply Option.ext
  intro value
  rw [Finmap.lookup_eq_some_iff, Option.map_eq_some_iff]
  constructor
  · intro member
    obtain ⟨entry, present, equal⟩ := Multiset.mem_map.mp member
    cases equal
    exact ⟨entry.2, Finmap.lookup_eq_some_iff.mpr present, rfl⟩
  · intro ⟨old, found, changed⟩
    subst changed
    exact Multiset.mem_map.mpr ⟨⟨key, old⟩, Finmap.lookup_eq_some_iff.mp found, rfl⟩

/-- Changing the values adds no key. -/
@[simp] theorem mem_mapValues {change : Value → Value} {map : Map Key Value} {key : Key} :
    key ∈ mapValues change map ↔ key ∈ map := by
  simp only [Finmap.mem_iff, lookup_mapValues]
  cases map.lookup key <;> simp

/-! ## Counting entries -/

section Tally

variable (holds : Value → Prop) [DecidablePred holds]

/-- The keys whose value satisfies the predicate. -/
def support (map : Map Key Value) : Finset Key :=
  map.keys.filter fun key => ∃ value ∈ map.lookup key, holds value

/-- The number of entries whose value satisfies the predicate. -/
def tally (map : Map Key Value) : ℕ := (support holds map).card

variable {holds}

/-- The keys whose values are as wanted. -/
@[simp] theorem mem_support {map : Map Key Value} {key : Key} :
    key ∈ support holds map ↔ ∃ value, map.lookup key = some value ∧ holds value := by
  simp only [support, Finset.mem_filter, Finmap.mem_keys, Option.mem_def, and_iff_right_iff_imp]
  rintro ⟨value, found, _⟩
  exact Finmap.mem_of_lookup_eq_some found

/-- A key that is taken out is in no support. -/
theorem support_erase (map : Map Key Value) (key : Key) :
    support holds (map.erase key) = (support holds map).erase key := by
  ext query
  simp only [mem_support, lookup_erase_if, Finset.mem_erase]
  by_cases same : query = key <;> simp [same]

/-- A key with a wanted value is added. -/
theorem support_insert_of_holds (map : Map Key Value) (key : Key) {value : Value}
    (good : holds value) :
    support holds (map.insert key value) = insert key (support holds map) := by
  ext query
  simp only [mem_support, lookup_insert_if, Finset.mem_insert]
  by_cases same : query = key <;> simp [same, good]

/-- A key with another value is taken out. -/
theorem support_insert_of_not (map : Map Key Value) (key : Key) {value : Value}
    (bad : ¬ holds value) :
    support holds (map.insert key value) = (support holds map).erase key := by
  ext query
  simp only [mem_support, lookup_insert_if, Finset.mem_erase]
  by_cases same : query = key <;> simp [same, bad]

/-- Removing a counted entry lowers the count by one. -/
theorem tally_erase_of_holds {map : Map Key Value} {key : Key} {value : Value}
    (found : map.lookup key = some value) (good : holds value) :
    tally holds (map.erase key) + 1 = tally holds map := by
  rw [tally, support_erase]
  exact Finset.card_erase_add_one (mem_support.mpr ⟨value, found, good⟩)

/-- Removing an entry that is not counted keeps the count. -/
theorem tally_erase_of_not {map : Map Key Value} {key : Key}
    (uncounted : ∀ value, map.lookup key = some value → ¬ holds value) :
    tally holds (map.erase key) = tally holds map := by
  rw [tally, support_erase, Finset.erase_eq_of_notMem, ← tally]
  rintro member
  obtain ⟨value, found, good⟩ := mem_support.mp member
  exact uncounted value found good

/-- Adding a counted entry under a new key raises the count by one. -/
theorem tally_insert_of_holds {map : Map Key Value} {key : Key} {value : Value}
    (absent : map.lookup key = none) (good : holds value) :
    tally holds (map.insert key value) = tally holds map + 1 := by
  rw [tally, support_insert_of_holds map key good, Finset.card_insert_of_notMem, ← tally]
  rw [mem_support]
  rintro ⟨_, found, _⟩
  rw [absent] at found
  exact absurd found (by simp)

/-- Adding an entry that is not counted under a new key keeps the count. -/
theorem tally_insert_of_not {map : Map Key Value} {key : Key} {value : Value}
    (absent : map.lookup key = none) (bad : ¬ holds value) :
    tally holds (map.insert key value) = tally holds map := by
  rw [tally, support_insert_of_not map key bad, Finset.erase_eq_of_notMem, ← tally]
  rw [mem_support]
  rintro ⟨_, found, _⟩
  rw [absent] at found
  exact absurd found (by simp)

end Tally

end FiniteMap
