import Mathlib.Data.Finset.Card
import Mathlib.Data.List.Basic
import Mathlib.Tactic.Ring

/-! # A stack that may grow

Items are popped from a stack. An item that is popped is dead from then on, and each time
others that are still alive may be pushed, those included that are on the stack already.
-/

namespace Concurrency.Worklist

variable {α : Type} [DecidableEq α] {live : Finset α} {stack more : List α} {item : α}

/-- What is popped next is alive. -/
def TopLives (live : Finset α) (stack : List α) : Prop := ∃ top ∈ stack.getLast?, top ∈ live

instance : Decidable (TopLives live stack) :=
  inferInstanceAs (Decidable (∃ top ∈ stack.getLast?, top ∈ live))

/-- Each pop makes this smaller: of an item that is alive, since there are fewer of these,
and of one that is dead, since the next is alive or the stack is shorter. -/
def potential (live : Finset α) (stack : List α) : ℕ :=
  stack.length + live.card ^ 2 + if TopLives live stack then 0 else live.card

/-- The items pushed are distinct and alive, and if there are any the next is alive. -/
theorem length_pushed_le (once : more.Nodup) (alive : ∀ other ∈ more, other ∈ live) :
    more.length + (if TopLives live (stack ++ more) then 0 else live.card) ≤ live.card := by
  have fewer : more.length ≤ live.card := by
    rw [← List.toFinset_card_of_nodup once]
    exact Finset.card_le_card fun other member => alive other (List.mem_toFinset.mp member)
  rcases List.eq_nil_or_concat' more with rfl | ⟨others, top, rfl⟩
  · split
    · exact Nat.zero_le _
    · exact (Nat.zero_add _).le
  · have lives : TopLives live (stack ++ (others ++ [top])) := by
      refine ⟨top, ?_, alive top (List.mem_append_right _ List.mem_cons_self)⟩
      simp
    rwa [if_pos lives]

/-- Each pop makes the potential smaller. -/
theorem potential_pop (top : stack.getLast? = some item) (once : more.Nodup)
    (alive : ∀ other ∈ more, other ∈ live.erase item) :
    potential (live.erase item) (stack.dropLast ++ more) < potential live stack := by
  have pushed := @length_pushed_le _ _ _ stack.dropLast _ once alive
  have popped : stack.dropLast.length + 1 = stack.length := by
    obtain ⟨front, rfl⟩ := List.getLast?_eq_some_iff.mp top
    simp
  unfold potential
  rw [List.length_append]
  by_cases lives : item ∈ live
  · have first : TopLives live stack := ⟨item, top, lives⟩
    have fewer := Finset.card_erase_add_one lives
    rw [if_pos first, ← fewer]
    have square : ((live.erase item).card + 1) ^ 2 =
        (live.erase item).card ^ 2 + 2 * (live.erase item).card + 1 := by ring
    omega
  · have first : ¬ TopLives live stack := by
      rintro ⟨other, last, alive⟩
      rw [top] at last
      exact lives (Option.some.inj last ▸ alive)
    rw [Finset.erase_eq_of_notMem lives] at pushed ⊢
    rw [if_neg first]
    omega

end Concurrency.Worklist
