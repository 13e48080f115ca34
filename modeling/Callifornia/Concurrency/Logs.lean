import Callifornia.Concurrency.Traces

/-! # What a program logs, whatever its commands reply

The replies of the commands are arbitrary here, so that what is shown of a program holds of
it alone, under failures and among any other programs.
-/

namespace Concurrency.Program

variable {Op : Type} {Reply : Op → Type} {State Entry α β : Type}
  {log : (op : Op) → Reply op → List Entry}

/-- Whatever its commands reply, the program ends with a result and a log as stated. -/
def Leaves (log : (op : Op) → Reply op → List Entry) :
    Program Op Reply α → List Entry → (α → List Entry → Prop) → Prop
  | .ret value, entries, ends => ends value entries
  | .call op next, entries, ends => ∀ reply, (next reply).Leaves log (entries ++ log op reply) ends

variable {program : Program Op Reply α} {entries : List Entry} {ends middle : α → List Entry → Prop}

/-- What a program leaves may be weakened. -/
theorem Leaves.mono (leaves : program.Leaves log entries middle)
    (implies : ∀ value entries, middle value entries → ends value entries) :
    program.Leaves log entries ends := by
  induction program generalizing entries with
  | ret value => exact implies value entries leaves
  | call op next ih =>
      intro reply
      exact ih reply (leaves reply)

/-- The rule for a sequence. -/
theorem Leaves.bind {rest : α → Program Op Reply β} {ends : β → List Entry → Prop}
    (first : program.Leaves log entries middle)
    (second : ∀ value entries, middle value entries → (rest value).Leaves log entries ends) :
    (program >>= rest).Leaves log entries ends := by
  induction program generalizing entries with
  | ret value => exact second value entries first
  | call op next ih =>
      intro reply
      exact ih reply (first reply)

/-- With some replies to its commands the program returns the value. -/
def Returns : Program Op Reply α → α → Prop
  | .ret value, result => result = value
  | .call op next, result => ∃ reply : Reply op, (next reply).Returns result

/-- A program ends with a value that it returns. -/
theorem Leaves.returns (leaves : program.Leaves log entries ends) :
    program.Leaves log entries fun value after => program.Returns value ∧ ends value after := by
  induction program generalizing entries with
  | ret value => exact ⟨rfl, leaves⟩
  | call op next ih =>
      intro reply
      refine (ih reply (leaves reply)).mono fun value after ⟨returned, ends⟩ => ?_
      exact ⟨⟨reply, returned⟩, ends⟩

/-- A program that may fail goes on after a success only. -/
theorem Leaves.except_bind {ε : Type} {program : ExceptT ε (Program Op Reply) α}
    {rest : α → ExceptT ε (Program Op Reply) β} {middle : Except ε α → List Entry → Prop}
    {ends : Except ε β → List Entry → Prop} (first : program.run.Leaves log entries middle)
    (succeeds : ∀ value entries, middle (.ok value) entries →
      (rest value).run.Leaves log entries ends)
    (fails : ∀ error entries, middle (.error error) entries → ends (.error error) entries) :
    (program >>= rest).run.Leaves log entries ends := by
  rw [ExceptT.run_bind]
  refine first.bind fun value entries reached => ?_
  cases value with
  | ok value => exact succeeds value entries reached
  | error error => exact fails error entries reached

/-- The command logs nothing. -/
def Silent (log : (op : Op) → Reply op → List Entry) (op : Op) : Prop :=
  ∀ reply, log op reply = []

/-- A program of silent commands leaves the log as it is. -/
theorem Only.leaves (only : program.Only (Silent log)) :
    program.Leaves log entries fun _ after => after = entries := by
  induction program with
  | ret value => rfl
  | call op next ih =>
      intro reply
      rw [only.1 reply, List.append_nil]
      exact ih reply (only.2 reply)

/-- What is stated of every path of a program holds at the end of each of its runs. -/
theorem Leaves.runs {exec : (op : Op) → State → Reply op → State → Prop}
    (leaves : program.Leaves log entries ends) {before : State} {result : α}
    {after : State × List Entry}
    (run : program.Runs (Logged exec log) (before, entries) result after) :
    ends result after.2 := by
  induction program generalizing before entries with
  | ret value =>
      obtain ⟨rfl, rfl⟩ := run
      exact leaves
  | call op next ih =>
      obtain ⟨reply, ⟨middle, noted⟩, ⟨-, added⟩, rest⟩ := run
      have same : noted = entries ++ log op reply := added
      subst same
      exact ih reply (leaves reply) rest

end Concurrency.Program
