import Callifornia.Concurrency.Interleaving

/-! # Refinement of systems

A system refines another when whatever its commands and its surroundings do to a concrete state,
the commands and the surroundings of the other may do to a related abstract state. Then every run
of any number of its programs is a run of the other system, step by step, with the same programs.
-/

namespace Concurrency.System

variable {Op : Type} {Reply : Op → Type} {sys model : System Op Reply}

/-- The run of one system as one of the other. -/
def Thread.view (phase : sys.Phase → model.Phase) (result : sys.Result → model.Result)
    (thread : sys.Thread) : model.Thread where
  phase := phase thread.phase
  program := result <$> thread.program

/-- Steps with allowed commands are steps of the other system. -/
structure Refines (sys model : System Op Reply) (phase : sys.Phase → model.Phase)
    (result : sys.Result → model.Result) (allowed : Op → Prop)
    (Related : sys.State → model.State → Prop) : Prop where
  exec : ∀ {op state reply state' abstract}, allowed op → Related state abstract →
    sys.exec op state reply state' →
      ∃ abstract', model.exec op abstract reply abstract' ∧ Related state' abstract'
  advance : ∀ past op reply, phase (sys.advance past op reply) = model.advance (phase past) op reply
  start : ∀ {state others past program state' abstract}, Related state abstract →
    sys.start state others past program state' →
      ∃ abstract', model.start abstract (others.map phase) (phase past) (result <$> program)
        abstract' ∧ Related state' abstract'
  finish : ∀ {state past value abstract}, Related state abstract →
    Related (sys.finish state past value) (model.finish abstract (phase past) (result value))
  discard : ∀ {state past abstract}, Related state abstract → sys.discard state past →
    model.discard abstract (phase past)
  environment : ∀ {state others state' abstract}, Related state abstract →
    sys.environment state others state' →
      ∃ abstract', model.environment abstract (others.map phase) abstract' ∧
        Related state' abstract'

/-- Only these commands are executed. -/
abbrev only (allowed : Op → Prop) : sys.Guard := fun _ _ op _ => allowed op

variable {phase : sys.Phase → model.Phase} {result : sys.Result → model.Result}
  {allowed : Op → Prop} {Related : sys.State → model.State → Prop}

theorem phases_view (threads : List sys.Thread) :
    phases (threads.map (Thread.view phase result)) = (phases threads).map phase := by
  simp only [phases, List.map_map, Multiset.map_coe]
  rfl

namespace Refines

variable (refines : Refines sys model phase result allowed Related) {pool pool' : sys.Pool}
  {abstract : model.State}

include refines

/-- **Step lemma.** A step of the pool is one of the other system. -/
theorem step (related : Related pool.state abstract) (step : Step (only allowed) pool pool') :
    ∃ abstract', Step unguarded ⟨abstract, pool.threads.map (Thread.view phase result)⟩
      ⟨abstract', pool'.threads.map (Thread.view phase result)⟩ ∧
        Related pool'.state abstract' := by
  cases step with
  | command may effect =>
      obtain ⟨abstract', effect, related⟩ := refines.exec may related effect
      refine ⟨abstract', ?_, related⟩
      simp only [List.map_append, List.map_cons, Thread.view, refines.advance]
      exact .command trivial effect
  | finish =>
      refine ⟨_, ?_, refines.finish related⟩
      simp only [List.map_append, List.map_cons, Thread.view]
      exact .finish
  | start started =>
      obtain ⟨abstract', started, related⟩ := refines.start related started
      rw [← phases_view] at started
      exact ⟨abstract', .start started, related⟩
  | discard discarded =>
      refine ⟨abstract, ?_, related⟩
      rw [List.map_append, List.map_cons, List.map_append]
      exact .discard (refines.discard related discarded)
  | environment changed =>
      obtain ⟨abstract', changed, related⟩ := refines.environment related changed
      rw [← phases_view] at changed
      exact ⟨abstract', .environment changed, related⟩

/-- **Run lemma.** A run of the pool is one of the other system. -/
theorem reaches (related : Related pool.state abstract)
    (run : Reaches (only allowed) pool pool') :
    ∃ abstract', Reaches unguarded ⟨abstract, pool.threads.map (Thread.view phase result)⟩
      ⟨abstract', pool'.threads.map (Thread.view phase result)⟩ ∧
        Related pool'.state abstract' := by
  induction run with
  | refl => exact ⟨abstract, .refl, related⟩
  | tail _ last ih =>
      obtain ⟨middle, before, related⟩ := ih
      obtain ⟨abstract', now, related⟩ := refines.step related last
      exact ⟨abstract', before.tail now, related⟩

end Refines

/-! ## A run that is alone -/

/-- A program that runs alone is a run of a pool. -/
theorem reaches_alone {effect : (op : Op) → sys.State → Reply op → sys.State → Prop}
    (executed : ∀ op before reply after, effect op before reply after →
      allowed op ∧ sys.exec op before reply after)
    {program : Program Op Reply sys.Result} {before after : sys.State} {value : sys.Result}
    (run : program.Runs effect before value after) (past : sys.Phase) :
    ∃ last, Reaches (only allowed) (⟨before, [⟨past, program⟩]⟩ : sys.Pool)
      ⟨after, [⟨last, .ret value⟩]⟩ := by
  induction program generalizing before past with
  | ret returned =>
      obtain ⟨rfl, rfl⟩ := run
      exact ⟨past, .refl⟩
  | call op next ih =>
      obtain ⟨reply, middle, first, rest⟩ := run
      obtain ⟨may, step⟩ := executed op before reply middle first
      obtain ⟨last, reached⟩ := ih reply rest (sys.advance past op reply)
      have now : Step (only allowed) (⟨before, [⟨past, .call op next⟩]⟩ : sys.Pool)
          ⟨middle, [⟨sys.advance past op reply, next reply⟩]⟩ :=
        @Step.command _ _ sys (only allowed) _ _ [] [] _ _ _ _ may step
      exact ⟨last, .head now reached⟩

end Concurrency.System
