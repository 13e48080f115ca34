import Mathlib.Logic.Relation
import Mathlib.Control.Lawful

/-! # Programs of atomic commands

A program issues one atomic command at a time and continues with the reply it
receives. The commands, the type of each command's reply and the effect of a
command on the state are parameters, so that one program text serves the run of
a program alone (`Concurrency.Program.Runs`), its run under injected failures
and its run among others.
-/

namespace Concurrency

/-- A finite-depth program over commands `Op`, returning a value of type `α`. -/
inductive Program (Op : Type) (Reply : Op → Type) (α : Type) : Type
  | ret (value : α) : Program Op Reply α
  | call (op : Op) (next : Reply op → Program Op Reply α) : Program Op Reply α

namespace Program

variable {Op : Type} {Reply : Op → Type} {State α β γ : Type}

/-- Sequential composition. -/
def bind : Program Op Reply α → (α → Program Op Reply β) → Program Op Reply β
  | .ret value, rest => rest value
  | .call op next, rest => .call op fun reply => (next reply).bind rest

/-- Issue one command and return its reply. -/
def perform (op : Op) : Program Op Reply (Reply op) := .call op .ret

instance : Monad (Program Op Reply) where
  pure := .ret
  bind := bind

/-- A pure value is a program that ends. -/
@[simp] theorem pure_eq_ret (value : α) : (pure value : Program Op Reply α) = .ret value := rfl

/-- A program that has ended goes on with the rest. -/
@[simp] theorem ret_bind (value : α) (rest : α → Program Op Reply β) :
    Program.ret value >>= rest = rest value := rfl

/-- A command comes first, whatever follows it. -/
@[simp] theorem call_bind (op : Op) (next : Reply op → Program Op Reply α)
    (rest : α → Program Op Reply β) :
    Program.call op next >>= rest = .call op fun reply => next reply >>= rest := rfl

/-- One command and the rest. -/
@[simp] theorem perform_bind (op : Op) (rest : Reply op → Program Op Reply β) :
    perform op >>= rest = .call op rest := rfl

/-- Returning the result changes nothing. -/
theorem bind_ret_eq (program : Program Op Reply α) : program >>= Program.ret = program := by
  induction program with
  | ret value => rfl
  | call op next ih =>
      rw [call_bind]
      exact congrArg (Program.call op) (funext ih)

/-- Sequencing is associative. -/
theorem bind_bind_eq (program : Program Op Reply α) (first : α → Program Op Reply β)
    (second : β → Program Op Reply γ) :
    (program >>= first) >>= second = program >>= fun value => first value >>= second := by
  induction program with
  | ret value => rfl
  | call op next ih =>
      simp only [call_bind]
      exact congrArg (Program.call op) (funext ih)

instance : LawfulMonad (Program Op Reply) :=
  LawfulMonad.mk' _ (fun program => bind_ret_eq program) (fun _ _ => rfl)
    (fun program first second => bind_bind_eq program first second)

/-- The program whose commands carry a mark of the run that issues them. -/
def marked {Mark : Type} (mark : Mark) :
    Program Op Reply α → Program (Mark × Op) (fun command => Reply command.2) α
  | .ret value => .ret value
  | .call op next => .call (mark, op) fun reply => (next reply).marked mark

/-- The parts of a marked program are marked. -/
theorem marked_bind {Mark : Type} (mark : Mark) (program : Program Op Reply α)
    (rest : α → Program Op Reply β) :
    (program >>= rest).marked mark = program.marked mark >>=
    fun value => (rest value).marked mark := by
  induction program with
  | ret value => rfl
  | call op next ih => exact congrArg (Program.call (mark, op)) (funext ih)

/-! ## A program running alone -/

/-- The program, run alone from `before`, returns `result` in `after`. -/
def Runs (exec : (op : Op) → State → Reply op → State → Prop) :
    Program Op Reply α → State → α → State → Prop
  | .ret value, before, result, after => result = value ∧ after = before
  | .call op next, before, result, after =>
      ∃ reply middle, exec op before reply middle ∧ (next reply).Runs exec middle result after

variable {exec : (op : Op) → State → Reply op → State → Prop}

/-- A program that has ended leaves the state. -/
@[simp] theorem runs_ret {value result : α} {before after : State} :
    (Program.ret value : Program Op Reply α).Runs exec before result after ↔
      result = value ∧ after = before := Iff.rfl

/-- A run of a program begins with its first command. -/
@[simp] theorem runs_call {op : Op} {next : Reply op → Program Op Reply α}
    {before after : State} {result : α} :
    (Program.call op next).Runs exec before result after ↔
      ∃ reply middle, exec op before reply middle ∧
        (next reply).Runs exec middle result after := Iff.rfl

/-- A composed run splits at the value its first part returns. -/
theorem runs_bind {program : Program Op Reply α} {rest : α → Program Op Reply β}
    {before after : State} {result : β} :
    (program >>= rest).Runs exec before result after ↔
      ∃ value middle, program.Runs exec before value middle ∧
        (rest value).Runs exec middle result after := by
  induction program generalizing before with
  | ret value =>
      constructor
      · intro run
        exact ⟨value, before, ⟨rfl, rfl⟩, run⟩
      · rintro ⟨_, _, ⟨rfl, rfl⟩, run⟩
        exact run
  | call op next ih =>
      rw [call_bind, runs_call]
      constructor
      · rintro ⟨reply, middle, stepped, run⟩
        obtain ⟨value, last, first, second⟩ := ih reply |>.mp run
        exact ⟨value, last, ⟨reply, middle, stepped, first⟩, second⟩
      · rintro ⟨value, last, ⟨reply, middle, stepped, first⟩, second⟩
        exact ⟨reply, middle, stepped, ih reply |>.mpr ⟨value, last, first, second⟩⟩

/-- A run that may fail stops at the first error. -/
theorem runs_except_bind {ε : Type} {program : ExceptT ε (Program Op Reply) α}
    {rest : α → ExceptT ε (Program Op Reply) β} {before after : State} {result : Except ε β} :
    (program >>= rest).run.Runs exec before result after ↔
      ∃ value middle, program.run.Runs exec before value middle ∧
        match value with
        | .ok value => (rest value).run.Runs exec middle result after
        | .error error => result = .error error ∧ after = middle := by
  rw [ExceptT.run_bind, runs_bind]
  refine exists_congr fun value => exists_congr fun middle => and_congr_right fun _ => ?_
  cases value with
  | ok value => exact Iff.rfl
  | error error => exact Iff.rfl

/-- A success runs like a value. -/
@[simp] theorem runs_except_pure {ε : Type} {value : α} {before after : State}
    {result : Except ε α} :
    (pure value : ExceptT ε (Program Op Reply) α).run.Runs exec before result after ↔
      result = .ok value ∧ after = before := Iff.rfl

/-- A failure runs like a value. -/
@[simp] theorem runs_except_throw {ε : Type} {error : ε} {before after : State}
    {result : Except ε α} :
    (throw error : ExceptT ε (Program Op Reply) α).run.Runs exec before result after ↔
      result = .error error ∧ after = before := Iff.rfl

/-- A program that cannot fail, inside one that may. -/
theorem runs_lift_bind {ε : Type} {program : Program Op Reply α}
    {rest : α → ExceptT ε (Program Op Reply) β} {before after : State} {result : Except ε β} :
    ((liftM program : ExceptT ε (Program Op Reply) α) >>= rest).run.Runs exec before result
        after ↔
      ∃ value middle, program.Runs exec before value middle ∧
        (rest value).run.Runs exec middle result after := by
  rw [← runs_bind]
  exact Iff.of_eq (congrArg (Runs exec · before result after) (ExceptT.run_bind_lift program rest))

/-- An operation whose errors are renamed. -/
theorem runs_adapt {ε ε' : Type} {rename : ε → ε'} {program : ExceptT ε (Program Op Reply) α}
    {before after : State} {result : Except ε' α} :
    (ExceptT.adapt rename program).run.Runs exec before result after ↔
      ∃ value, program.run.Runs exec before value after ∧ result = value.mapError rename := by
  change (Except.mapError rename <$> program.run).Runs exec before result after ↔ _
  rw [map_eq_pure_bind, runs_bind]
  constructor
  · intro ⟨value, middle, run, returned, same⟩
    exact ⟨value, same ▸ run, returned⟩
  · intro ⟨value, run, returned⟩
    exact ⟨value, after, run, returned, rfl⟩

/-- A run, seen through a projection of the state. -/
theorem Runs.project {State' : Type} {exec' : (op : Op) → State' → Reply op → State' → Prop}
    {view : State → State'}
    (step : ∀ op before reply after, exec op before reply after →
      exec' op (view before) reply (view after))
    {program : Program Op Reply α} {before after : State} {result : α}
    (run : program.Runs exec before result after) :
    program.Runs exec' (view before) result (view after) := by
  induction program generalizing before with
  | ret value => exact ⟨run.1, congrArg view run.2⟩
  | call op next ih =>
      obtain ⟨reply, middle, first, rest⟩ := run
      exact ⟨reply, view middle, step op before reply middle first, ih reply rest⟩

/-! ## Loops that run alone -/

/-- A loop carries from the items done to one more what each iteration does. -/
theorem runs_forM {γ : Type} {keeps : List γ → State → Prop} {items done : List γ}
    {body : γ → Program Op Reply PUnit}
    (each : ∀ done item before after, item ∈ items → keeps done before →
      (body item).Runs exec before ⟨⟩ after → keeps (item :: done) after)
    {before after : State} {result : PUnit} (start : keeps done before)
    (run : (items.forM body).Runs exec before result after) :
    keeps (items.reverse ++ done) after := by
  induction items generalizing done before with
  | nil =>
      obtain ⟨-, rfl⟩ := run
      exact start
  | cons item items ih =>
      obtain ⟨_, middle, first, rest⟩ := runs_bind.mp
        (show (body item >>= fun _ => items.forM body).Runs exec before result after from run)
      have kept := each done item before middle List.mem_cons_self start first
      rw [List.reverse_cons, List.append_assoc]
      exact ih (fun done other before after member =>
        each done other before after (List.mem_cons_of_mem _ member)) kept rest

/-- A loop whose iterations all succeed. -/
theorem runs_except_forM {γ ε : Type} {keeps : List γ → State → Prop} {items done : List γ}
    {body : γ → ExceptT ε (Program Op Reply) PUnit}
    (each : ∀ done item before result after, item ∈ items → keeps done before →
      (body item).run.Runs exec before result after →
        result = .ok ⟨⟩ ∧ keeps (item :: done) after)
    {before after : State} {result : Except ε PUnit} (start : keeps done before)
    (run : (items.forM body).run.Runs exec before result after) :
    result = .ok ⟨⟩ ∧ keeps (items.reverse ++ done) after := by
  induction items generalizing done before with
  | nil =>
      obtain ⟨rfl, rfl⟩ := run
      exact ⟨rfl, start⟩
  | cons item items ih =>
      obtain ⟨value, middle, first, rest⟩ := runs_except_bind.mp
        (show (body item >>= fun _ => items.forM body).run.Runs exec before result after from run)
      obtain ⟨rfl, kept⟩ := each done item before value middle List.mem_cons_self start first
      rw [List.reverse_cons, List.append_assoc]
      exact ih (fun done other before result after member =>
        each done other before result after (List.mem_cons_of_mem _ member)) kept rest

/-! ## Programs restricted to some commands -/

/-- Every command the program can issue satisfies `allowed`. -/
def Only (allowed : Op → Prop) : Program Op Reply α → Prop
  | .ret _ => True
  | .call op next => allowed op ∧ ∀ reply, (next reply).Only allowed

/-- A sequence issues what its parts issue. -/
theorem Only.bind {allowed : Op → Prop} {program : Program Op Reply α}
    {rest : α → Program Op Reply β} (first : program.Only allowed)
    (second : ∀ value, (rest value).Only allowed) : (program >>= rest).Only allowed := by
  induction program with
  | ret value => exact second value
  | call op next ih => exact ⟨first.1, fun reply => ih reply (first.2 reply)⟩

/-- So does a sequence that stops at an error. -/
theorem Only.except_bind {allowed : Op → Prop} {ε : Type}
    {program : ExceptT ε (Program Op Reply) α} {rest : α → ExceptT ε (Program Op Reply) β}
    (first : program.run.Only allowed) (second : ∀ value, (rest value).run.Only allowed) :
    (program >>= rest).run.Only allowed := by
  rw [ExceptT.run_bind]
  refine first.bind fun value => ?_
  cases value with
  | ok value => exact second value
  | error error => trivial

/-- A program that cannot fail, inside one that may. -/
theorem Only.lift {allowed : Op → Prop} {ε : Type} {program : Program Op Reply α}
    (only : program.Only allowed) : (liftM program : ExceptT ε (Program Op Reply) α).run.Only
      allowed :=
  only.bind fun _ => trivial

/-- An operation whose errors are renamed. -/
theorem Only.adapt {allowed : Op → Prop} {ε ε' : Type} {rename : ε → ε'}
    {program : ExceptT ε (Program Op Reply) α} (only : program.run.Only allowed) :
    (ExceptT.adapt rename program).run.Only allowed :=
  Only.bind only fun _ => trivial

/-- A loop issues what its body issues. -/
theorem Only.forM {allowed : Op → Prop} {γ : Type} {items : List γ}
    {body : γ → Program Op Reply PUnit} (each : ∀ item ∈ items, (body item).Only allowed) :
    (items.forM body).Only allowed := by
  induction items with
  | nil => trivial
  | cons item items ih =>
      change (body item >>= fun _ => items.forM body).Only allowed
      exact (each item List.mem_cons_self).bind fun _ =>
        ih fun other member => each other (List.mem_cons_of_mem _ member)

/-- So does a loop that stops at an error. -/
theorem Only.except_forM {allowed : Op → Prop} {γ ε : Type} {items : List γ}
    {body : γ → ExceptT ε (Program Op Reply) PUnit}
    (each : ∀ item ∈ items, (body item).run.Only allowed) :
    (items.forM body).run.Only allowed := by
  induction items with
  | nil => trivial
  | cons item items ih =>
      change (body item >>= fun _ => items.forM body).run.Only allowed
      exact (each item List.mem_cons_self).except_bind fun _ =>
        ih fun other member => each other (List.mem_cons_of_mem _ member)

/-- Every program issues some commands or other. -/
theorem only_of_forall {allowed : Op → Prop} (all : ∀ op, allowed op)
    (program : Program Op Reply α) : program.Only allowed := by
  induction program with
  | ret value => trivial
  | call op next ih => exact ⟨all op, ih⟩

/-- A program of few commands is a program of more. -/
theorem Only.mono {weak strong : Op → Prop} (implies : ∀ op, strong op → weak op)
    {program : Program Op Reply α} (only : program.Only strong) : program.Only weak := by
  induction program with
  | ret value => trivial
  | call op next ih => exact ⟨implies op only.1, fun reply => ih reply (only.2 reply)⟩

/-- From every state the program has a run to its end. -/
def Halts (exec : (op : Op) → State → Reply op → State → Prop) (program : Program Op Reply α) :
    Prop :=
  ∀ before, ∃ result after, program.Runs exec before result after

/-- A program halts when each of its commands has an outcome in every state. -/
theorem Only.halts {allowed : Op → Prop}
    (total : ∀ op before, allowed op → ∃ reply after, exec op before reply after)
    {program : Program Op Reply α} (only : program.Only allowed) : program.Halts exec := by
  induction program with
  | ret value => exact fun before => ⟨value, before, rfl, rfl⟩
  | call op next ih =>
      intro before
      obtain ⟨reply, middle, step⟩ := total op before only.1
      obtain ⟨result, after, rest⟩ := ih reply (only.2 reply) middle
      exact ⟨result, after, reply, middle, step, rest⟩

/-- A sequence that may stop at an error halts if its parts do. -/
theorem Halts.except_bind {ε : Type} {program : ExceptT ε (Program Op Reply) α}
    {rest : α → ExceptT ε (Program Op Reply) β} (first : program.run.Halts exec)
    (second : ∀ value, (rest value).run.Halts exec) : (program >>= rest).run.Halts exec := by
  intro before
  obtain ⟨value, middle, run⟩ := first before
  cases value with
  | ok value =>
      obtain ⟨result, after, ends⟩ := second value middle
      exact ⟨result, after, runs_except_bind.mpr ⟨_, middle, run, ends⟩⟩
  | error error => exact ⟨_, middle, runs_except_bind.mpr ⟨_, middle, run, rfl, rfl⟩⟩

/-- A program runs the same way where its commands have the same effects. -/
theorem Only.runs_congr {allowed : Op → Prop}
    {exec' : (op : Op) → State → Reply op → State → Prop}
    (same : ∀ op before reply after, allowed op →
      (exec op before reply after ↔ exec' op before reply after))
    {program : Program Op Reply α} (only : program.Only allowed) {before after : State}
    {result : α} : program.Runs exec before result after ↔
      program.Runs exec' before result after := by
  induction program generalizing before with
  | ret value => exact Iff.rfl
  | call op next ih =>
      refine exists_congr fun reply => exists_congr fun middle => ?_
      exact and_congr (same op before reply middle only.1) (ih reply (only.2 reply))

/-- A relation every allowed command respects holds between the ends of a run. -/
theorem Only.runs {allowed : Op → Prop} {keeps : State → State → Prop}
    (refl : ∀ state, keeps state state)
    (trans : ∀ first second third, keeps first second → keeps second third → keeps first third)
    (step : ∀ op before reply after, allowed op → exec op before reply after →
      keeps before after)
    {program : Program Op Reply α} (only : program.Only allowed)
    {before after : State} {result : α} (run : program.Runs exec before result after) :
    keeps before after := by
  induction program generalizing before with
  | ret value =>
      obtain ⟨-, rfl⟩ := run
      exact refl _
  | call op next ih =>
      obtain ⟨reply, middle, stepped, rest⟩ := run
      exact trans _ _ _ (step op before reply middle only.1 stepped)
        (ih reply (only.2 reply) rest)

end Program

end Concurrency
