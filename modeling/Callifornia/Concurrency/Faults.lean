import Callifornia.Concurrency.Program

/-! # One failing command

A program runs alone, and at most one of its commands fails. The reply of a
failing command says so; where the reply may have been lost, the command may have
taken effect all the same.
-/

namespace Concurrency

/-- The command that failed, and whether it took effect. -/
structure Fault (Op : Type) where
  op : Op
  committed : Bool

/-- How commands fail. -/
structure Failures (Op : Type) (Reply : Op → Type) where
  /-- The reply reports a failure. -/
  fails : (op : Op) → Reply op → Prop
  /-- The command may have taken effect nevertheless. -/
  lost : (op : Op) → Reply op → Prop

namespace Failures

variable {Op State α β : Type} {Reply : Op → Type} (failures : Failures Op Reply)
  (exec : (op : Op) → State → Reply op → State → Prop)

/-- The effect of a command that succeeds. -/
def Succeeds (op : Op) (before : State) (reply : Reply op) (after : State) : Prop :=
  ¬ failures.fails op reply ∧ exec op before reply after

/-- The effect of a command when one may fail; the state remembers which one did. -/
def faulty (op : Op) (before : State × Option (Fault Op)) (reply : Reply op)
    (after : State × Option (Fault Op)) : Prop :=
  (failures.Succeeds exec op before.1 reply after.1 ∧ after.2 = before.2) ∨
    (failures.fails op reply ∧ before.2 = none ∧
      (after = (before.1, some ⟨op, false⟩) ∨
        (failures.lost op reply ∧ ∃ answer, failures.Succeeds exec op before.1 answer after.1 ∧
          after.2 = some ⟨op, true⟩)))

variable {failures exec} {program : Program Op Reply α} {state : State} {fault : Fault Op}
  {result : α} {after : State × Option (Fault Op)}

/-- After the failure every command succeeds. -/
theorem runs_spent (run : program.Runs (failures.faulty exec) (state, some fault) result after) :
    program.Runs (failures.Succeeds exec) state result after.1 ∧ after.2 = some fault := by
  induction program generalizing state with
  | ret value =>
      obtain ⟨rfl, rfl⟩ := run
      exact ⟨⟨rfl, rfl⟩, rfl⟩
  | call op next ih =>
      obtain ⟨reply, ⟨middle, failed⟩, step, rest⟩ := run
      rcases step with ⟨step, same⟩ | ⟨-, none, -⟩
      · obtain rfl : failed = some fault := same
        obtain ⟨run, kept⟩ := ih reply rest
        exact ⟨⟨reply, middle, step, run⟩, kept⟩
      · cases none

end Failures

/-! ## Computing a run -/

/-- Compute one run of a program, taking a hint for each command. -/
def Program.follow {Op State Hint α : Type} {Reply : Op → Type}
    (sample : Hint → (op : Op) → State → Option (Reply op × State)) :
    List Hint → Program Op Reply α → State → Option (α × State)
  | _, .ret value, state => some (value, state)
  | [], .call .., _ => none
  | hint :: hints, .call op next, state =>
      match sample hint op state with
      | none => none
      | some (reply, middle) => follow sample hints (next reply) middle

/-- A computed run is a run. -/
theorem Program.runs_of_follow {Op State Hint α : Type} {Reply : Op → Type}
    {sample : Hint → (op : Op) → State → Option (Reply op × State)}
    {exec : (op : Op) → State → Reply op → State → Prop}
    (sound : ∀ hint op state reply after, sample hint op state = some (reply, after) →
      exec op state reply after)
    {hints : List Hint} {program : Program Op Reply α} {state after : State} {result : α}
    (followed : program.follow sample hints state = some (result, after)) :
    program.Runs exec state result after := by
  induction program generalizing state hints with
  | ret value =>
      cases hints <;>
      · cases followed
        exact ⟨rfl, rfl⟩
  | call op next ih =>
      cases hints with
      | nil => cases followed
      | cons hint hints =>
          simp only [follow] at followed
          split at followed
          · cases followed
          · rename_i reply middle sampled
            exact ⟨reply, middle, sound _ _ _ _ _ sampled, ih reply followed⟩

/-- A computed run whose outcome passes a test. -/
theorem Program.exists_of_follow {Op State Hint α : Type} {Reply : Op → Type}
    {sample : Hint → (op : Op) → State → Option (Reply op × State)}
    {exec : (op : Op) → State → Reply op → State → Prop}
    (sound : ∀ hint op state reply after, sample hint op state = some (reply, after) →
      exec op state reply after)
    {hints : List Hint} {program : Program Op Reply α} {state : State} {test : α → State → Bool}
    (passes : (program.follow sample hints state).any (fun outcome =>
      test outcome.1 outcome.2) = true) :
    ∃ result after, program.Runs exec state result after ∧ test result after = true := by
  cases followed : program.follow sample hints state with
  | none =>
      rw [followed] at passes
      cases passes
  | some outcome =>
      rw [followed] at passes
      exact ⟨outcome.1, outcome.2, runs_of_follow sound followed, passes⟩

end Concurrency
