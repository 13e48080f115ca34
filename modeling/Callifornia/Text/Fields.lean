import Mathlib.Data.List.TakeWhile
import Mathlib.Data.Nat.Digits.Defs
import Mathlib.Data.Set.List

/-! # Fields of a text

A text is cut at a separator, once or everywhere, its fields are freed of the blanks around
them, and some of them are decimal numbers.
-/

namespace Text

section Cut

variable {α : Type} [DecidableEq α]

/-- The parts before and after the first separator. -/
def splitOnce (separator : α) : List α → Option (List α × List α)
  | [] => none
  | item :: rest =>
      if item = separator then some ([], rest)
      else (splitOnce separator rest).map fun parts => (item :: parts.1, parts.2)

variable {separator : α} {front back text : List α}

/-- Without a separator in the first part, both parts are found. -/
theorem splitOnce_append (free : separator ∉ front) :
    splitOnce separator (front ++ separator :: back) = some (front, back) := by
  induction front with
  | nil => simp only [List.nil_append, splitOnce, ↓reduceIte]
  | cons item front ih =>
      obtain ⟨other, free⟩ := not_or.mp (mt List.mem_cons.mpr free)
      rw [List.cons_append, splitOnce, if_neg (Ne.symm other), ih free]
      rfl

/-- Two texts with the same parts, the first of them without the separator. -/
theorem append_separator_inj {front' back' : List α} (free : separator ∉ front)
    (free' : separator ∉ front')
    (same : front ++ separator :: back = front' ++ separator :: back') :
    front = front' ∧ back = back' := by
  have parts := congrArg (splitOnce separator) same
  rw [splitOnce_append free, splitOnce_append free'] at parts
  exact Prod.mk.inj (Option.some.inj parts)

end Cut

section Trim

variable {α : Type} {blank : α → Bool} {item : α} {left text right : List α}

/-- The text without the blanks around it. -/
def trimBy (blank : α → Bool) (text : List α) : List α :=
  ((text.dropWhile blank).reverse.dropWhile blank).reverse

theorem blank_or_mem_dropWhile (member : item ∈ text) :
    blank item = true ∨ item ∈ text.dropWhile blank := by
  rw [← List.takeWhile_append_dropWhile (p := blank) (l := text), List.mem_append] at member
  exact member.imp_left fun taken => List.all_eq_true.mp List.all_takeWhile _ taken

/-- Nothing but blanks is trimmed. -/
theorem blank_or_mem_trimBy (member : item ∈ text) :
    blank item = true ∨ item ∈ trimBy blank text := by
  rcases blank_or_mem_dropWhile member with is | rest
  · exact .inl is
  · exact (blank_or_mem_dropWhile (List.mem_reverse.mpr rest)).imp_right List.mem_reverse.mpr

theorem trimBy_append_left (blanks : ∀ item ∈ left, blank item = true) :
    trimBy blank (left ++ text) = trimBy blank text := by
  rw [trimBy, List.dropWhile_append_of_pos blanks]
  rfl

theorem trimBy_append_right (blanks : ∀ item ∈ right, blank item = true) :
    trimBy blank (text ++ right) = trimBy blank text := by
  have none : right.dropWhile blank = [] := List.dropWhile_eq_nil_iff.mpr blanks
  rw [trimBy, trimBy, List.dropWhile_append]
  split
  · rename_i empty
    rw [none, List.isEmpty_iff.mp empty]
  · rw [List.reverse_append, List.dropWhile_append_of_pos]
    exact fun item member => blanks item (List.mem_reverse.mp member)

theorem trimBy_eq_nil : trimBy blank text = [] ↔ ∀ item ∈ text, blank item = true := by
  constructor
  · intro empty item member
    rcases blank_or_mem_trimBy member with is | kept
    · exact is
    · rw [empty] at kept
      cases kept
  · intro blanks
    rw [trimBy, List.dropWhile_eq_nil_iff.mpr blanks]
    rfl

/-- A text that is trimmed already stays when blanks are put around it. -/
theorem trimBy_pad (tight : trimBy blank text = text) (lefts : ∀ item ∈ left, blank item = true)
    (rights : ∀ item ∈ right, blank item = true) : trimBy blank (left ++ text ++ right) = text := by
  rw [trimBy_append_right rights, trimBy_append_left lefts, tight]

end Trim

section Lists

/-- A list is read if each of its items is. -/
theorem mapM_eq_ok {α ε β : Type} {parse : α → Except ε β} {items : List α} {results : List β} :
    items.mapM parse = .ok results ↔ items.map parse = results.map .ok := by
  induction items generalizing results with
  | nil => cases results <;> simp [pure, Except.pure]
  | cons item items ih =>
      rw [List.mapM_cons, List.map_cons]
      cases read : parse item with
      | error message => cases results <;> simp [bind, Except.bind]
      | ok first =>
          cases rest : items.mapM parse with
          | error message => cases results <;> simp [bind, Except.bind, ← ih, rest]
          | ok others => cases results <;> simp [bind, Except.bind, pure, Except.pure, ← ih, rest]

/-- The results are those of the items. -/
theorem mem_mapM {α ε β : Type} {parse : α → Except ε β} {items : List α} {results : List β}
    (read : items.mapM parse = .ok results) {result : β} :
    result ∈ results ↔ ∃ item ∈ items, parse item = .ok result := by
  rw [← List.mem_map, mapM_eq_ok.mp read, List.mem_map]
  exact ⟨fun member => ⟨result, member, rfl⟩, fun ⟨_, member, same⟩ => Except.ok.inj same ▸ member⟩

/-- There are results if each item has one. -/
theorem exists_mapM_eq_ok {α ε β : Type} {parse : α → Except ε β} {items : List α} :
    (∃ results, items.mapM parse = .ok results) ↔
      ∀ item ∈ items, ∃ result, parse item = .ok result := by
  constructor
  · rintro ⟨results, read⟩ item member
    have returned := List.mem_map_of_mem (f := parse) member
    rw [mapM_eq_ok.mp read] at returned
    obtain ⟨result, -, same⟩ := List.mem_map.mp returned
    exact ⟨result, same.symm⟩
  · intro all
    obtain ⟨results, read⟩ : items.map parse ∈ Set.range (List.map (Except.ok (ε := ε))) := by
      rw [Set.range_list_map]
      refine List.forall_mem_map.mpr fun item member => ?_
      obtain ⟨result, read⟩ := all item member
      exact ⟨result, read.symm⟩
    exact ⟨results, mapM_eq_ok.mpr read.symm⟩

variable {α : Type} [DecidableEq α] {blank : α → Bool} {separator : α}

/-- The fields of a list; those with nothing but blanks do not count. -/
def listed (blank : α → Bool) (separator : α) (text : List α) : List (List α) :=
  (text.splitOn separator).filter (trimBy blank · ≠ [])

theorem listed_intercalate {texts : List (List α)} (plain : ∀ text ∈ texts, separator ∉ text)
    (full : ∀ text ∈ texts, trimBy blank text ≠ []) :
    listed blank separator ([separator].intercalate texts) = texts := by
  unfold listed
  by_cases none : texts = []
  · rw [none, List.intercalate_nil, List.splitOn_nil]
    rfl
  · rw [List.splitOn_intercalate separator plain none, List.filter_eq_self]
    exact fun text member => decide_eq_true (full text member)

theorem listed_eq_nil (separates : blank separator = false) {text : List α}
    (empty : trimBy blank text = []) : listed blank separator text = [] := by
  have free : separator ∉ text := fun member =>
    Bool.false_ne_true (separates.symm.trans (trimBy_eq_nil.mp empty separator member))
  rw [listed, List.splitOn_eq_singleton free, List.filter_cons_of_neg, List.filter_nil]
  exact fun full => of_decide_eq_true full empty

end Lists

section Numbers

variable {bound value : ℕ} {text : List Char}

/-- The value of a decimal number below a bound, with an optional leading plus. -/
def parseNat (bound : ℕ) (text : List Char) : Option ℕ :=
  let digits := match text with
    | '+' :: digits => digits
    | digits => digits
  if digits ≠ [] ∧ digits.all Char.isDigit ∧ Nat.ofDigitChars 10 digits 0 < bound then
    some (Nat.ofDigitChars 10 digits 0)
  else none

/-- A number survives being written as decimal digits. -/
theorem parseNat_toDigits (small : value < bound) :
    parseNat bound (Nat.toDigits 10 value) = some value := by
  have each : ∀ char ∈ Nat.toDigits 10 value, char.isDigit = true := fun char member =>
    Nat.isDigit_of_mem_toDigits (by decide) (by decide) member
  have unsigned : (match Nat.toDigits 10 value with
      | '+' :: digits => digits
      | digits => digits) = Nat.toDigits 10 value := by
    split
    · rename_i rest first
      exact absurd (each '+' (by rw [first]; exact List.mem_cons_self)) (by decide)
    · rfl
  unfold parseNat
  simp only [unsigned, Nat.ofDigitChars_ten_toDigits]
  rw [if_pos ⟨Nat.toDigits_ne_nil, List.all_eq_true.mpr each, small⟩]

/-- A text with another character is no number. -/
theorem parseNat_eq_none {char : Char} (member : char ∈ text) (other : char ≠ '+')
    (noDigit : char.isDigit = false) : parseNat bound text = none := by
  unfold parseNat
  refine if_neg fun number => ?_
  have digits := List.all_eq_true.mp number.2.1
  split at digits
  · rcases List.mem_cons.mp member with same | member
    · exact other same
    · exact Bool.false_ne_true (noDigit.symm.trans (digits char member))
  · exact Bool.false_ne_true (noDigit.symm.trans (digits char member))

end Numbers

end Text
