import Callifornia.Concurrency.Sequential

/-! # Programs that complete

What every run ensures says nothing about a run that cannot go on, such as that of a loop
whose bound is used up. A program completes when none of its runs gets stuck: each can be
carried on to an end, and every end is as it should be.
-/

namespace Concurrency.Program

variable {Op State α β : Type} {Reply : Op → Type}

/-- No run of the program gets stuck, and every run ends as `post` says. -/
def Completes (exec : (op : Op) → State → Reply op → State → Prop) :
    Program Op Reply α → State → (α → State → Prop) → Prop
  | .ret value, before, post => post value before
  | .call op next, before, post => (∃ reply middle, exec op before reply middle) ∧
      ∀ reply middle, exec op before reply middle → (next reply).Completes exec middle post

variable {exec : (op : Op) → State → Reply op → State → Prop} {program : Program Op Reply α}
  {before : State} {post : α → State → Prop}

theorem completes_bind {rest : α → Program Op Reply β} {post : β → State → Prop} :
    (program >>= rest).Completes exec before post ↔
      program.Completes exec before fun value middle =>
        (rest value).Completes exec middle post := by
  induction program generalizing before with
  | ret value => exact Iff.rfl
  | call op next ih =>
      refine and_congr_right fun _ => ?_
      exact forall_congr' fun reply => forall_congr' fun middle => imp_congr_right fun _ => ih reply

theorem Completes.mono {strong : α → State → Prop}
    (completes : program.Completes exec before strong)
    (implies : ∀ value after, strong value after → post value after) :
    program.Completes exec before post := by
  induction program generalizing before with
  | ret value => exact implies value before completes
  | call op next ih =>
      exact ⟨completes.1, fun reply middle step => ih reply (completes.2 reply middle step)⟩

theorem Completes.bind {rest : α → Program Op Reply β} {between : α → State → Prop}
    {post : β → State → Prop} (first : program.Completes exec before between)
    (second : ∀ value middle, between value middle → (rest value).Completes exec middle post) :
    (program >>= rest).Completes exec before post :=
  completes_bind.mpr (first.mono second)

/-- A program that completes has a run. -/
theorem Completes.exists_run (completes : program.Completes exec before post) :
    ∃ result after, program.Runs exec before result after ∧ post result after := by
  induction program generalizing before with
  | ret value => exact ⟨value, before, ⟨rfl, rfl⟩, completes⟩
  | call op next ih =>
      obtain ⟨reply, middle, step⟩ := completes.1
      obtain ⟨result, after, run, holds⟩ := ih reply (completes.2 reply middle step)
      exact ⟨result, after, ⟨reply, middle, step, run⟩, holds⟩

/-- A program of commands that can always be executed keeps what each of them keeps. -/
theorem Only.completes {allowed : Op → Prop} {keeps : State → Prop}
    (enabled : ∀ op before, allowed op → ∃ reply after, exec op before reply after)
    (step : ∀ op before reply after, allowed op → keeps before → exec op before reply after →
      keeps after)
    (only : program.Only allowed) (holds : keeps before) :
    program.Completes exec before fun _ after => keeps after := by
  induction program generalizing before with
  | ret value => exact holds
  | call op next ih =>
      refine ⟨enabled op before only.1, fun reply middle taken => ?_⟩
      exact ih reply (only.2 reply) (step op before reply middle only.1 holds taken)

end Concurrency.Program
