import Callifornia.Concurrency.Program

/-! # What every run of a program ensures

A program runs alone from a given state. The rules follow the program's structure.
-/

namespace Concurrency

namespace Program

variable {Op State α β : Type} {Reply : Op → Type}
  {exec : (op : Op) → State → Reply op → State → Prop}

/-- Every run of the program from this state ends as `post` says. -/
structure Ensures (exec : (op : Op) → State → Reply op → State → Prop)
    (program : Program Op Reply α) (before : State) (post : α → State → Prop) : Prop where
  holds : ∀ result after, program.Runs exec before result after → post result after

/-- A program that returns at once ensures what holds of its result before it. -/
@[simp] theorem ensures_ret {value : α} {before : State} {post : α → State → Prop} :
    (Program.ret value : Program Op Reply α).Ensures exec before post ↔ post value before := by
  constructor
  · intro ensures
    exact ensures.holds value before ⟨rfl, rfl⟩
  · intro holds
    constructor
    intro result after run
    obtain ⟨rfl, rfl⟩ := run
    exact holds

/-- A call ensures what its continuation ensures from every state the call may reach. -/
theorem ensures_call {op : Op} {next : Reply op → Program Op Reply α} {before : State}
    {post : α → State → Prop} :
    (Program.call op next).Ensures exec before post ↔
      ∀ reply middle, exec op before reply middle → (next reply).Ensures exec middle post := by
  constructor
  · intro ensures reply middle step
    constructor
    intro result after rest
    exact ensures.holds result after ⟨reply, middle, step, rest⟩
  · intro ensures
    constructor
    intro result after run
    obtain ⟨reply, middle, step, rest⟩ := run
    exact (ensures reply middle step).holds result after rest

/-- A sequence ensures what its second part ensures from wherever the first ends. -/
theorem ensures_bind {program : Program Op Reply α} {rest : α → Program Op Reply β}
    {before : State} {post : β → State → Prop} :
    (program >>= rest).Ensures exec before post ↔
      program.Ensures exec before fun value middle => (rest value).Ensures exec middle post := by
  constructor
  · intro ensures
    constructor
    intro value middle first
    constructor
    intro result after second
    exact ensures.holds result after (runs_bind.mpr ⟨value, middle, first, second⟩)
  · intro ensures
    constructor
    intro result after run
    obtain ⟨value, middle, first, second⟩ := runs_bind.mp run
    exact (ensures.holds value middle first).holds result after second

/-- What a run that may fail ensures after its first part. -/
def Onward {ε : Type} (exec : (op : Op) → State → Reply op → State → Prop)
    (rest : α → ExceptT ε (Program Op Reply) β) (post : Except ε β → State → Prop) :
    Except ε α → State → Prop
  | .ok value, middle => (rest value).run.Ensures exec middle post
  | .error error, middle => post (.error error) middle

/-- A sequence that may fail stops at the failure. -/
theorem ensures_except_bind {ε : Type} {program : ExceptT ε (Program Op Reply) α}
    {rest : α → ExceptT ε (Program Op Reply) β} {before : State}
    {post : Except ε β → State → Prop} :
    (program >>= rest).run.Ensures exec before post ↔
      program.run.Ensures exec before (Onward exec rest post) := by
  rw [ExceptT.run_bind, ensures_bind]
  refine Iff.of_eq (congrArg _ (funext fun value => funext fun middle => ?_))
  cases value with
  | ok value => rfl
  | error error => exact propext ensures_ret

/-- A step that cannot fail, followed by one that can. -/
theorem ensures_lift_bind {ε : Type} {program : Program Op Reply α}
    {rest : α → ExceptT ε (Program Op Reply) β} {before : State}
    {post : Except ε β → State → Prop} :
    ((liftM program : ExceptT ε (Program Op Reply) α) >>= rest).run.Ensures exec before post ↔
      program.Ensures exec before fun value middle =>
        (rest value).run.Ensures exec middle post := by
  rw [← ensures_bind]
  exact Iff.of_eq (congrArg (Ensures exec · before post) (ExceptT.run_bind_lift program rest))

/-- A step that cannot fail succeeds. -/
theorem ensures_lift {ε : Type} {program : Program Op Reply α} {before : State}
    {post : Except ε α → State → Prop} :
    (liftM program : ExceptT ε (Program Op Reply) α).run.Ensures exec before post ↔
      program.Ensures exec before fun value => post (.ok value) := by
  refine ensures_bind.trans (Iff.of_eq (congrArg _ (funext fun value => funext fun middle => ?_)))
  exact propext ensures_ret

/-- Renaming the failures of a program renames them in what it ensures. -/
theorem ensures_adapt {ε ε' : Type} {rename : ε → ε'} {program : ExceptT ε (Program Op Reply) α}
    {before : State} {post : Except ε' α → State → Prop} :
    (ExceptT.adapt rename program).run.Ensures exec before post ↔
      program.run.Ensures exec before fun value => post (value.mapError rename) := by
  constructor
  · intro ensures
    constructor
    intro value after run
    exact ensures.holds _ after (runs_adapt.mpr ⟨value, run, rfl⟩)
  · intro ensures
    constructor
    intro result after run
    obtain ⟨value, first, rfl⟩ := runs_adapt.mp run
    exact ensures.holds value after first

/-- A result returned at once succeeds. -/
@[simp] theorem ensures_except_pure {ε : Type} {value : α} {before : State}
    {post : Except ε α → State → Prop} :
    (pure value : ExceptT ε (Program Op Reply) α).run.Ensures exec before post ↔
      post (.ok value) before :=
  ensures_ret

/-- A failure thrown at once fails. -/
@[simp] theorem ensures_throw {ε : Type} {error : ε} {before : State}
    {post : Except ε α → State → Prop} :
    (throw error : ExceptT ε (Program Op Reply) α).run.Ensures exec before post ↔
      post (.error error) before :=
  ensures_ret

variable {program : Program Op Reply α} {before : State} {post : α → State → Prop}

/-- What a program ensures may be weakened. -/
theorem Ensures.mono {strong : α → State → Prop} (ensures : program.Ensures exec before strong)
    (implies : ∀ value after, strong value after → post value after) :
    program.Ensures exec before post :=
  ⟨fun value after run => implies value after (ensures.holds value after run)⟩

/-- What a program ensures twice over it ensures together. -/
theorem Ensures.and {other : α → State → Prop} (first : program.Ensures exec before post)
    (second : program.Ensures exec before other) :
    program.Ensures exec before fun value after => post value after ∧ other value after :=
  ⟨fun value after run => ⟨first.holds value after run, second.holds value after run⟩⟩

/-- The rule for a sequence. -/
theorem Ensures.bind {rest : α → Program Op Reply β} {between : α → State → Prop}
    {post : β → State → Prop} (first : program.Ensures exec before between)
    (second : ∀ value middle, between value middle → (rest value).Ensures exec middle post) :
    (program >>= rest).Ensures exec before post :=
  ensures_bind.mpr (first.mono second)

/-- The rule for a sequence that may fail. -/
theorem Ensures.except_bind {ε : Type} {program : ExceptT ε (Program Op Reply) α}
    {rest : α → ExceptT ε (Program Op Reply) β} {between : Except ε α → State → Prop}
    {post : Except ε β → State → Prop} (first : program.run.Ensures exec before between)
    (succeeds : ∀ value middle, between (.ok value) middle →
      (rest value).run.Ensures exec middle post)
    (fails : ∀ error middle, between (.error error) middle → post (.error error) middle) :
    (program >>= rest).run.Ensures exec before post := by
  refine ensures_except_bind.mpr (first.mono ?_)
  intro value middle holds
  cases value with
  | ok value => exact succeeds value middle holds
  | error error => exact fails error middle holds

/-- The rule for a step that cannot fail. -/
theorem Ensures.lift_bind {ε : Type} {rest : α → ExceptT ε (Program Op Reply) β}
    {between : α → State → Prop} {post : Except ε β → State → Prop}
    (first : program.Ensures exec before between)
    (second : ∀ value middle, between value middle → (rest value).run.Ensures exec middle post) :
    ((liftM program : ExceptT ε (Program Op Reply) α) >>= rest).run.Ensures exec before post :=
  ensures_lift_bind.mpr (first.mono second)

/-- What holds of every run holds of the runs that are seen through a projection of the
state. -/
theorem Ensures.project {State' : Type} {exec' : (op : Op) → State' → Reply op → State' → Prop}
    (view : State' → State) {before : State'}
    (ensures : program.Ensures exec (view before) post)
    (step : ∀ op before reply after, exec' op before reply after →
      exec op (view before) reply (view after)) :
    program.Ensures exec' before fun value after => post value (view after) :=
  ⟨fun value after run => ensures.holds value (view after) (Runs.project step run)⟩

/-- A property that every command keeps holds at the end of a run. -/
theorem ensures_of_kept {keeps : State → Prop}
    (step : ∀ op before reply after, keeps before → exec op before reply after → keeps after)
    (holds : keeps before) : program.Ensures exec before fun _ after => keeps after := by
  induction program generalizing before with
  | ret value => exact ensures_ret.mpr holds
  | call op next ih =>
      refine ensures_call.mpr fun reply middle taken => ?_
      exact ih reply (step op before reply middle holds taken)

/-- A property that every allowed command keeps holds at the end of a run. -/
theorem Only.ensures {allowed : Op → Prop} {keeps : State → Prop}
    (step : ∀ op before reply after, allowed op → keeps before → exec op before reply after →
      keeps after)
    (only : program.Only allowed) (holds : keeps before) :
    program.Ensures exec before fun _ after => keeps after := by
  induction program generalizing before with
  | ret value => exact ensures_ret.mpr holds
  | call op next ih =>
      refine ensures_call.mpr fun reply middle taken => ?_
      exact ih reply (only.2 reply) (step op before reply middle only.1 holds taken)

end Program

end Concurrency
