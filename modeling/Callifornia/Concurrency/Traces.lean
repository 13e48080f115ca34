import Callifornia.Concurrency.Program

/-! # Runs with their commands

A run of a program that notes the commands it executes. Whatever holds of a run holds of
it with its notes, and a program restricted to some commands notes no others.
-/

namespace Concurrency.Program

variable {Op : Type} {Reply : Op → Type} {State α : Type}
  {exec : (op : Op) → State → Reply op → State → Prop}

/-- A command that is noted; the latest note is first. -/
def Noted (exec : (op : Op) → State → Reply op → State → Prop) (op : Op)
    (before : State × List Op) (reply : Reply op) (after : State × List Op) : Prop :=
  exec op before.1 reply after.1 ∧ after.2 = op :: before.2

variable {program : Program Op Reply α} {result : α}

/-- A run by stronger steps. -/
theorem Runs.mono {exec' : (op : Op) → State → Reply op → State → Prop}
    (implies : ∀ op before reply after, exec op before reply after → exec' op before reply after)
    {before after : State} (run : program.Runs exec before result after) :
    program.Runs exec' before result after :=
  @Runs.project Op Reply State α exec State exec' id implies program before after result run

/-- The run without its notes. -/
theorem Runs.unnoted {before after : State × List Op}
    (run : program.Runs (Noted exec) before result after) :
    program.Runs exec before.1 result after.1 :=
  Runs.project (fun _ _ _ _ step => step.1) run

/-- The run with its notes. -/
theorem Runs.noted {before after : State} (run : program.Runs exec before result after)
    (notes : List Op) :
    ∃ notes', program.Runs (Noted exec) (before, notes) result (after, notes') := by
  induction program generalizing before notes with
  | ret value => exact ⟨notes, run.1, Prod.ext run.2 rfl⟩
  | call op next ih =>
      obtain ⟨reply, middle, step, rest⟩ := run
      obtain ⟨notes', rest⟩ := ih reply rest (op :: notes)
      exact ⟨notes', reply, (middle, op :: notes), ⟨step, rfl⟩, rest⟩

/-- What has been noted stays noted. -/
theorem Runs.notes_subset {before after : State × List Op}
    (run : program.Runs (Noted exec) before result after) : before.2 ⊆ after.2 := by
  induction program generalizing before with
  | ret value =>
      obtain ⟨-, rfl⟩ := run
      exact List.Subset.refl _
  | call op next ih =>
      obtain ⟨reply, middle, step, rest⟩ := run
      have kept := ih reply rest
      rw [step.2] at kept
      exact List.Subset.trans (List.subset_cons_self op before.2) kept

/-- Only the commands a program may issue are noted. -/
theorem Only.notes {allowed : Op → Prop} (only : program.Only allowed)
    {before after : State × List Op} (run : program.Runs (Noted exec) before result after) :
    ∀ op ∈ after.2, op ∈ before.2 ∨ allowed op := by
  induction program generalizing before with
  | ret value =>
      obtain ⟨-, rfl⟩ := run
      exact fun _ => .inl
  | call op next ih =>
      obtain ⟨reply, middle, step, rest⟩ := run
      intro noted member
      rcases ih reply (only.2 reply) rest noted member with old | fits
      · rw [step.2] at old
        rcases List.mem_cons.mp old with rfl | old
        · exact .inr only.1
        · exact .inl old
      · exact .inr fits

/-! ## What a run leaves in a log -/

section Logs

variable {Entry : Type} {log : (op : Op) → Reply op → List Entry}

/-- A command with what it adds to a log. -/
def Logged (exec : (op : Op) → State → Reply op → State → Prop)
    (log : (op : Op) → Reply op → List Entry) (op : Op) (before : State × List Entry)
    (reply : Reply op) (after : State × List Entry) : Prop :=
  exec op before.1 reply after.1 ∧ after.2 = before.2 ++ log op reply

/-- The run with its log. -/
theorem Runs.logged {before after : State} (run : program.Runs exec before result after)
    (entries : List Entry) :
    ∃ entries', program.Runs (Logged exec log) (before, entries) result (after, entries') := by
  induction program generalizing before entries with
  | ret value => exact ⟨entries, run.1, Prod.ext run.2 rfl⟩
  | call op next ih =>
      obtain ⟨reply, middle, step, rest⟩ := run
      obtain ⟨entries', rest⟩ := ih reply rest (entries ++ log op reply)
      exact ⟨entries', reply, (middle, entries ++ log op reply), ⟨step, rfl⟩, rest⟩

theorem Runs.log_subset {before after : State × List Entry}
    (run : program.Runs (Logged exec log) before result after) : before.2 ⊆ after.2 := by
  induction program generalizing before with
  | ret value =>
      obtain ⟨-, rfl⟩ := run
      exact List.Subset.refl _
  | call op next ih =>
      obtain ⟨reply, middle, step, rest⟩ := run
      have kept := ih reply rest
      rw [step.2] at kept
      exact List.Subset.trans (List.subset_append_left _ _) kept

/-- The run without its log, in which every command has left its entries. -/
theorem Runs.unlogged {before after : State × List Entry}
    (run : program.Runs (Logged exec log) before result after) :
    program.Runs (fun op middle reply next =>
      exec op middle reply next ∧ log op reply ⊆ after.2) before.1 result after.1 := by
  induction program generalizing before with
  | ret value =>
      obtain ⟨same, rfl⟩ := run
      exact ⟨same, rfl⟩
  | call op next ih =>
      obtain ⟨reply, middle, step, rest⟩ := run
      have kept := rest.log_subset
      rw [step.2] at kept
      refine ⟨reply, middle.1, ⟨step.1, ?_⟩, ih reply rest⟩
      exact List.Subset.trans (List.subset_append_right _ _) kept

end Logs

end Concurrency.Program
