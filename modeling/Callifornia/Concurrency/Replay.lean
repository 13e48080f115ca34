import Callifornia.Concurrency.Interleaving

/-! # Replaying a schedule

A sampler computes one outcome of a command, guided by a hint where the outcome
is not determined. Replaying a list of thread positions and hints yields a pool
that the system reaches.
-/

namespace Concurrency

open Relation

/-- One outcome of each command, when the hint fits. -/
structure System.Sampler {Op : Type} {Reply : Op → Type} (sys : System Op Reply)
    (Hint : Type) where
  sample : Hint → (op : Op) → sys.State → Option (Reply op × sys.State)
  sound : ∀ {hint op state reply state'}, sample hint op state = some (reply, state') →
    sys.exec op state reply state'

namespace System.Sampler

variable {Op Hint : Type} {Reply : Op → Type} {sys : System Op Reply}
  (sampler : sys.Sampler Hint) (guard : sys.Guard)
  [∀ state phase op others, Decidable (guard state phase op others)]

/-- Let the thread at a position take its next step, if the guard allows it. -/
def advanceAt (hint : Hint) (position : ℕ) (pool : sys.Pool) : Option sys.Pool :=
  match pool.threads[position]? with
  | none => none
  | some ⟨phase, .ret result⟩ =>
      some ⟨sys.finish pool.state phase result, pool.threads.eraseIdx position⟩
  | some ⟨phase, .call op next⟩ =>
      if guard pool.state phase op (phases (pool.threads.eraseIdx position)) then
        match sampler.sample hint op pool.state with
        | none => none
        | some (reply, state') =>
            some ⟨state', pool.threads.set position ⟨sys.advance phase op reply, next reply⟩⟩
      else none

/-- Follow a schedule. -/
def replay : List (ℕ × Hint) → sys.Pool → Option sys.Pool
  | [], pool => some pool
  | (position, hint) :: schedule, pool =>
      match sampler.advanceAt guard hint position pool with
      | none => none
      | some next => replay schedule next

variable {sampler guard}

theorem split_at {α : Type} {items : List α} {position : ℕ} {item : α}
    (found : items[position]? = some item) :
    ∃ before after, items = before ++ item :: after ∧ before.length = position := by
  obtain ⟨bound, rfl⟩ := List.getElem?_eq_some_iff.mp found
  refine ⟨items.take position, items.drop (position + 1), ?_, ?_⟩
  · rw [← List.drop_eq_getElem_cons bound, List.take_append_drop]
  · rw [List.length_take, Nat.min_eq_left bound.le]

theorem eraseIdx_middle {α : Type} (before after : List α) (item : α) :
    (before ++ item :: after).eraseIdx before.length = before ++ after := by
  rw [List.eraseIdx_append_of_length_le (Nat.le_refl _), Nat.sub_self, List.eraseIdx_cons_zero]

theorem set_middle {α : Type} (before after : List α) (item new : α) :
    (before ++ item :: after).set before.length new = before ++ new :: after := by
  rw [List.set_append_right _ _ (Nat.le_refl _), Nat.sub_self, List.set_cons_zero]

theorem advanceAt_step {hint : Hint} {position : ℕ} {pool pool' : sys.Pool}
    (stepped : sampler.advanceAt guard hint position pool = some pool') :
    Step guard pool pool' := by
  obtain ⟨state, threads⟩ := pool
  unfold advanceAt at stepped
  split at stepped
  · cases stepped
  · rename_i phase result found
    obtain ⟨before, after, rfl, rfl⟩ := split_at found
    cases stepped
    simp only [eraseIdx_middle]
    exact .finish
  · rename_i phase op next found
    obtain ⟨before, after, rfl, rfl⟩ := split_at found
    simp only [eraseIdx_middle, set_middle] at stepped
    split at stepped
    · rename_i allowed
      split at stepped
      · cases stepped
      · rename_i reply state' sampled
        cases stepped
        exact .command allowed (sampler.sound sampled)
    · cases stepped

/-- The system reaches the pool a schedule leads to. -/
theorem replay_reaches {schedule : List (ℕ × Hint)} {pool pool' : sys.Pool}
    (followed : sampler.replay guard schedule pool = some pool') :
    Reaches guard pool pool' := by
  induction schedule generalizing pool with
  | nil =>
      cases followed
      exact .refl
  | cons item schedule ih =>
      obtain ⟨position, hint⟩ := item
      unfold replay at followed
      split at followed
      · cases followed
      · rename_i next stepped
        exact .head (advanceAt_step stepped) (ih followed)

/-- A schedule that leads to a pool passing a test. -/
theorem exists_of_replay {schedule : List (ℕ × Hint)} {pool : sys.Pool} {test : sys.Pool → Bool}
    (passes : (sampler.replay guard schedule pool).any test = true) :
    ∃ pool', Reaches guard pool pool' ∧ test pool' = true := by
  cases followed : sampler.replay guard schedule pool with
  | none =>
      rw [followed] at passes
      cases passes
  | some pool' =>
      rw [followed] at passes
      exact ⟨pool', replay_reaches followed, passes⟩

/-- Two schedules with one more step of the system between them. -/
theorem exists_of_replay_launch {first second : List (ℕ × Hint)} {pool : sys.Pool}
    {launch : sys.Pool → Option sys.Pool} {test : sys.Pool → Bool}
    (launches : ∀ pool pool', launch pool = some pool' → Step guard pool pool')
    (passes : (((sampler.replay guard first pool).bind launch).bind
      (sampler.replay guard second)).any test = true) :
    ∃ pool', Reaches guard pool pool' ∧ test pool' = true := by
  cases followed : sampler.replay guard first pool with
  | none =>
      rw [followed] at passes
      cases passes
  | some middle =>
      rw [followed, Option.bind_some] at passes
      cases launched : launch middle with
      | none =>
          rw [launched] at passes
          cases passes
      | some next =>
          rw [launched, Option.bind_some] at passes
          obtain ⟨pool', run, passed⟩ := exists_of_replay passes
          exact ⟨pool', (replay_reaches followed).trans (.head (launches _ _ launched) run), passed⟩

end System.Sampler

/-- Runs whose start changes nothing may start together. -/
theorem System.reaches_start {Op : Type} {Reply : Op → Type} {sys : System Op Reply}
    {guard : sys.Guard} {state : sys.State} {threads : List sys.Thread}
    (starts : ∀ thread ∈ threads, ∀ others,
      sys.start state others thread.phase thread.program state) :
    Reaches guard ⟨state, []⟩ ⟨state, threads⟩ := by
  induction threads with
  | nil => exact .refl
  | cons thread threads ih =>
      exact .tail (ih fun other member => starts other (List.mem_cons_of_mem _ member))
        (.start (starts thread List.mem_cons_self _))

end Concurrency
