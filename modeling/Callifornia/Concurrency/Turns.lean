import Callifornia.Concurrency.Faults
import Callifornia.Concurrency.Sequential
import Callifornia.Concurrency.Transition

/-! # Actions taken in turn

An action is a program that runs alone, in a semantics of its own. Between two actions
the surroundings may change the state.
-/

namespace Concurrency

variable {Op State Action : Type} {Reply : Op → Type}

/-- A system whose actions are taken in turn. -/
structure Turns (Op : Type) (Reply : Op → Type) (State Action : Type) where
  program : Action → Program Op Reply Unit
  /-- When an action may start. -/
  starts : Action → State → Prop
  /-- What an operation of an action does. -/
  exec : Action → (op : Op) → State → Reply op → State → Prop
  /-- What may happen between two actions. -/
  idles : State → State → Prop

namespace Turns

variable {turns : Turns Op Reply State Action}

/-- An action is taken, or the surroundings do something. -/
inductive Step (turns : Turns Op Reply State Action) : Option Action → State → State → Prop
  | acts {action : Action} {before after : State} : turns.starts action before →
      (turns.program action).Runs (turns.exec action) before () after →
      Step turns (some action) before after
  | idles {before after : State} : turns.idles before after → Step turns none before after

/-- **Run lemma.** What every action ensures and the surroundings keep holds at the end of
a run. -/
theorem invariant (Inv : State → Prop)
    (acts : ∀ action before, Inv before → turns.starts action before →
      (turns.program action).Ensures (turns.exec action) before fun _ => Inv)
    (idles : ∀ before after, Inv before → turns.idles before after → Inv after)
    {before after : State} {labels : List (Option Action)} (start : Inv before)
    (run : Runs turns.Step before labels after) : Inv after := by
  have kept (label : Option Action) (before after : State) (holds : Inv before)
      (step : turns.Step label before after) : Inv after := by
    cases step with
    | acts starts ran => exact (acts _ before holds starts).holds () after ran
    | idles idle => exact idles before after holds idle
  exact run.invariant kept start

/-! ## Computing a run -/

section Computing

variable {Hint : Type} (turns)
  (sample : Action → Hint → (op : Op) → State → Option (Reply op × State))
  (check : Action → State → Bool)

/-- Take some actions one after the other, with hints for each, while they pass a check. -/
def follow : List (Action × List Hint) → State → Option State
  | [], state => some state
  | (action, hints) :: rest, state =>
      if check action state then
        ((turns.program action).follow (sample action) hints state).bind fun outcome =>
          follow rest outcome.2
      else none

variable {turns sample check}

theorem runs_of_follow
    (sound : ∀ action hint op before reply after,
      sample action hint op before = some (reply, after) → turns.exec action op before reply after)
    (starts : ∀ action state, check action state = true → turns.starts action state)
    {steps : List (Action × List Hint)} {before after : State}
    (followed : turns.follow sample check steps before = some after) :
    Runs turns.Step before (steps.map (some ·.1)) after := by
  induction steps generalizing before with
  | nil =>
      cases followed
      exact .nil
  | cons step steps ih =>
      obtain ⟨action, hints⟩ := step
      simp only [follow] at followed
      split at followed
      · rename_i passes
        obtain ⟨⟨_, middle⟩, now, later⟩ := Option.bind_eq_some_iff.mp followed
        refine .cons (.acts (starts action before passes) ?_) (ih later)
        exact Program.runs_of_follow (sound action) now
      · cases followed

/-- A computed run whose end passes a test. -/
theorem exists_of_follow
    (sound : ∀ action hint op before reply after,
      sample action hint op before = some (reply, after) → turns.exec action op before reply after)
    (starts : ∀ action state, check action state = true → turns.starts action state)
    {steps : List (Action × List Hint)} {before : State} {test : State → Bool}
    (passes : (turns.follow sample check steps before).any test = true) :
    ∃ after, Runs turns.Step before (steps.map (some ·.1)) after ∧ test after = true := by
  cases followed : turns.follow sample check steps before with
  | none =>
      rw [followed] at passes
      cases passes
  | some after =>
      rw [followed] at passes
      exact ⟨after, runs_of_follow sound starts followed, passes⟩

end Computing

end Turns

end Concurrency
