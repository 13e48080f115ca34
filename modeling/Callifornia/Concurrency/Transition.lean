import Mathlib.Logic.Relation

/-! # Runs of labelled transition systems

A run is a list of labels with the states it leads through. An invariant of the
steps holds wherever a run leads, and a relation that every step of one system
carries over to another is carried along whole runs.
-/

namespace Concurrency

variable {State Abstract Label : Type}

/-- A run from a state to another. -/
inductive Runs (step : Label → State → State → Prop) : State → List Label → State → Prop
  | nil {state : State} : Runs step state [] state
  | cons {before middle after : State} {label : Label} {labels : List Label} :
      step label before middle → Runs step middle labels after →
      Runs step before (label :: labels) after

namespace Runs

variable {step : Label → State → State → Prop} {before after : State} {labels : List Label}

/-- **Run lemma.** What every step keeps holds at the end of a run. -/
theorem invariant {Inv : State → Prop}
    (kept : ∀ label before after, Inv before → step label before after → Inv after)
    (run : Runs step before labels after) (start : Inv before) : Inv after := by
  induction run with
  | nil => exact start
  | cons first _ ih => exact ih (kept _ _ _ start first)

/-- **Simulation.** A relation between the states of two systems that every step
carries over is carried over by every run. -/
theorem simulates {abstract : Label → Abstract → Abstract → Prop}
    {Related : State → Abstract → Prop}
    (simulated : ∀ label before after model, Related before model → step label before after →
      ∃ model', abstract label model model' ∧ Related after model')
    {model : Abstract} (related : Related before model) (run : Runs step before labels after) :
    ∃ model', Runs abstract model labels model' ∧ Related after model' := by
  induction run generalizing model with
  | nil => exact ⟨model, .nil, related⟩
  | cons first _ ih =>
      obtain ⟨next, now, related⟩ := simulated _ _ _ _ related first
      obtain ⟨last, later, related⟩ := ih related
      exact ⟨last, .cons now later, related⟩

end Runs

end Concurrency
