import Callifornia.Concurrency.Program
import Mathlib.Data.Multiset.Filter
import Mathlib.Data.List.Perm.Basic

/-! # Interleaved runs of programs

A pool holds any number of runs of programs over one shared state. A step of the
pool executes the next command of one run, removes a finished run, starts a new
run, or changes the state from outside. Every run carries a *phase*, a record of
the commands it has executed so far, computed by `System.advance`; the phase has
no influence on the run and lets a condition on a step speak of what the other
runs have done (`Guard`).

Invariants of all reachable pools are proved one run at a time: an `Outline`
gives an invariant over the state and the phases of all runs, and a program is
`Outline.Safe` when each of its commands preserves it. `Outline.reaches` carries
the invariant to every reachable pool.
-/

namespace Concurrency

open Relation

/-- A shared state, the commands that act on it and the runs that use it. -/
structure System (Op : Type) (Reply : Op → Type) where
  State : Type
  Phase : Type
  Result : Type
  /-- The effect of one atomic command. -/
  exec : (op : Op) → State → Reply op → State → Prop
  /-- The phase of a run after it has received a reply. -/
  advance : Phase → (op : Op) → Reply op → Phase
  /-- A run of this program may start in this phase, changing the state. -/
  start : State → Multiset Phase → Phase → Program Op Reply Result → State → Prop
  /-- The state left when a run ends. -/
  finish : State → Phase → Result → State
  /-- A run in this phase may be abandoned. -/
  discard : State → Phase → Prop
  /-- The state may change by itself, given the phases of the runs. -/
  environment : State → Multiset Phase → State → Prop

namespace System

variable {Op : Type} {Reply : Op → Type} (sys : System Op Reply)

/-- A run in progress. -/
structure Thread where
  phase : sys.Phase
  program : Program Op Reply sys.Result

/-- A shared state with the runs in progress. -/
structure Pool where
  state : sys.State
  threads : List sys.Thread

/-- A condition on the execution of a command: the state before it, the phase
of the run that executes it, the command, and the phases of the other runs. -/
abbrev Guard := sys.State → sys.Phase → Op → Multiset sys.Phase → Prop

variable {sys}

/-- The phases of all runs. -/
def phases (threads : List sys.Thread) : Multiset sys.Phase := threads.map Thread.phase

@[simp] theorem phases_nil : phases ([] : List sys.Thread) = 0 := rfl

@[simp] theorem phases_cons (thread : sys.Thread) (threads : List sys.Thread) :
    phases (thread :: threads) = thread.phase ::ₘ phases threads := rfl

@[simp] theorem phases_append (first second : List sys.Thread) :
    phases (first ++ second) = phases first + phases second := by
  simp [phases]

theorem phases_middle (before after : List sys.Thread) (thread : sys.Thread) :
    phases (before ++ thread :: after) = thread.phase ::ₘ phases (before ++ after) := by
  simp only [phases_append, phases_cons, Multiset.add_cons]

/-- One step of a pool whose commands satisfy the guard. -/
inductive Step (guard : sys.Guard) : sys.Pool → sys.Pool → Prop
  | command {state state' : sys.State} {before after : List sys.Thread} {phase : sys.Phase}
      {op : Op} {next : Reply op → Program Op Reply sys.Result} {reply : Reply op} :
      guard state phase op (phases (before ++ after)) → sys.exec op state reply state' →
      Step guard ⟨state, before ++ ⟨phase, .call op next⟩ :: after⟩
        ⟨state', before ++ ⟨sys.advance phase op reply, next reply⟩ :: after⟩
  | finish {state : sys.State} {before after : List sys.Thread} {phase : sys.Phase}
      {result : sys.Result} :
      Step guard ⟨state, before ++ ⟨phase, .ret result⟩ :: after⟩
        ⟨sys.finish state phase result, before ++ after⟩
  | start {state state' : sys.State} {threads : List sys.Thread} {phase : sys.Phase}
      {program : Program Op Reply sys.Result} :
      sys.start state (phases threads) phase program state' →
      Step guard ⟨state, threads⟩ ⟨state', ⟨phase, program⟩ :: threads⟩
  | discard {state : sys.State} {before after : List sys.Thread} {thread : sys.Thread} :
      sys.discard state thread.phase →
      Step guard ⟨state, before ++ thread :: after⟩ ⟨state, before ++ after⟩
  | environment {state state' : sys.State} {threads : List sys.Thread} :
      sys.environment state (phases threads) state' →
      Step guard ⟨state, threads⟩ ⟨state', threads⟩

/-- The pools reached by steps whose commands satisfy the guard. -/
abbrev Reaches (guard : sys.Guard) : sys.Pool → sys.Pool → Prop := ReflTransGen (Step guard)

/-- Every command is allowed. -/
abbrev unguarded : sys.Guard := fun _ _ _ _ => True

/-- A step that a guard allows is allowed by a weaker one. -/
theorem Step.weaken {guard weaker : sys.Guard}
    (implies : ∀ state phase op others, guard state phase op others →
      weaker state phase op others) {pool pool' : sys.Pool}
    (step : Step guard pool pool') : Step weaker pool pool' := by
  cases step with
  | command allowed effect => exact .command (implies _ _ _ _ allowed) effect
  | finish => exact .finish
  | start started => exact .start started
  | discard discarded => exact .discard discarded
  | environment changed => exact .environment changed

/-- A guarded run is one without a guard. -/
theorem reaches_unguarded {guard : sys.Guard} {pool pool' : sys.Pool}
    (run : Reaches guard pool pool') : Reaches unguarded pool pool' := by
  induction run with
  | refl => exact .refl
  | tail _ step ih => exact ih.tail (step.weaken fun _ _ _ _ _ => trivial)

/-- No run is in progress. -/
def Pool.Quiescent (pool : sys.Pool) : Prop := pool.threads = []

end System

/-! ## Proof outlines -/

/-- An invariant of the state and the phases of all runs, and what holds
whenever a run executes a command. -/
structure Outline {Op : Type} {Reply : Op → Type} (sys : System Op Reply) where
  guard : sys.Guard
  inv : sys.State → Multiset sys.Phase → Prop
  asserts : sys.State → sys.Phase → Op → Prop

namespace Outline

open Concurrency.System

variable {Op : Type} {Reply : Op → Type} {sys : System Op Reply} (outline : Outline sys)
  {α β : Type}

/-- Every command of the program keeps the invariant, whatever the other runs
do, and a returned value satisfies `post` together with the last phase. -/
def Safe (post : sys.Phase → α → Prop) : sys.Phase → Program Op Reply α → Prop
  | phase, .ret value => post phase value
  | phase, .call op next => ∀ state others, outline.inv state (phase ::ₘ others) →
      outline.guard state phase op others →
      outline.asserts state phase op ∧ ∀ reply state', sys.exec op state reply state' →
        outline.inv state' (sys.advance phase op reply ::ₘ others) ∧
          Safe post (sys.advance phase op reply) (next reply)

/-- A run may end in this phase with this result. -/
def MayFinish (phase : sys.Phase) (result : sys.Result) : Prop :=
  ∀ state others, outline.inv state (phase ::ₘ others) →
    outline.inv (sys.finish state phase result) others

/-- The invariant holds and every run preserves it. -/
def Holds (pool : sys.Pool) : Prop :=
  outline.inv pool.state (phases pool.threads) ∧
    ∀ thread ∈ pool.threads, outline.Safe outline.MayFinish thread.phase thread.program

/-- The invariant survives everything but the commands of the runs. -/
structure Stable : Prop where
  start : ∀ state others phase program state', sys.start state others phase program state' →
    outline.inv state others →
      outline.inv state' (phase ::ₘ others) ∧ outline.Safe outline.MayFinish phase program
  discard : ∀ state phase others, sys.discard state phase →
    outline.inv state (phase ::ₘ others) → outline.inv state others
  environment : ∀ state others state', sys.environment state others state' →
    outline.inv state others → outline.inv state' others

variable {outline}

@[simp] theorem safe_ret {post : sys.Phase → α → Prop} {phase : sys.Phase} {value : α} :
    outline.Safe post phase (.ret value) ↔ post phase value := Iff.rfl

/-- A composed program is safe when its second part is safe from wherever its
first part ends. -/
theorem Safe.bind {post : sys.Phase → β → Prop} {phase : sys.Phase}
    {program : Program Op Reply α} {rest : α → Program Op Reply β}
    (first : outline.Safe (fun phase value => outline.Safe post phase (rest value))
      phase program) : outline.Safe post phase (program >>= rest) := by
  induction program generalizing phase with
  | ret value => exact first
  | call op next ih =>
      intro state others holds allowed
      obtain ⟨asserted, stepped⟩ := first state others holds allowed
      refine ⟨asserted, fun reply state' effect => ?_⟩
      obtain ⟨kept, safe⟩ := stepped reply state' effect
      exact ⟨kept, ih reply safe⟩

theorem Safe.mono {strong weak : sys.Phase → α → Prop}
    (implies : ∀ phase value, strong phase value → weak phase value) {phase : sys.Phase}
    {program : Program Op Reply α} (safe : outline.Safe strong phase program) :
    outline.Safe weak phase program := by
  induction program generalizing phase with
  | ret value => exact implies _ _ safe
  | call op next ih =>
      intro state others holds allowed
      obtain ⟨asserted, stepped⟩ := safe state others holds allowed
      refine ⟨asserted, fun reply state' effect => ?_⟩
      obtain ⟨kept, rest⟩ := stepped reply state' effect
      exact ⟨kept, ih reply rest⟩

/-- A program whose result is replaced. -/
theorem Safe.mapConst {post : sys.Phase → β → Prop} {phase : sys.Phase} {value : β}
    {program : Program Op Reply α} (safe : outline.Safe (fun phase _ => post phase value) phase
      program) : outline.Safe post phase (Functor.mapConst value program) :=
  Safe.bind safe

/-- A composed program that may fail stops at the first error. -/
theorem Safe.except_bind {ε : Type} {post : sys.Phase → Except ε β → Prop} {phase : sys.Phase}
    {program : ExceptT ε (Program Op Reply) α} {rest : α → ExceptT ε (Program Op Reply) β}
    (first : outline.Safe (fun phase value => match value with
      | .ok value => outline.Safe post phase (rest value).run
      | .error error => post phase (.error error)) phase program.run) :
    outline.Safe post phase (program >>= rest).run := by
  rw [ExceptT.run_bind]
  refine Safe.bind (first.mono fun phase value safe => ?_)
  cases value with
  | ok value => exact safe
  | error error => exact safe

/-- A program that cannot fail, inside one that may. -/
theorem Safe.lift {ε : Type} {post : sys.Phase → Except ε α → Prop} {phase : sys.Phase}
    {program : Program Op Reply α}
    (safe : outline.Safe (fun phase value => post phase (.ok value)) phase program) :
    outline.Safe post phase (liftM program : ExceptT ε (Program Op Reply) α).run :=
  Safe.bind safe

/-- An operation whose errors are renamed. -/
theorem Safe.adapt {ε ε' : Type} {rename : ε → ε'} {post : sys.Phase → Except ε' α → Prop}
    {phase : sys.Phase} {program : ExceptT ε (Program Op Reply) α}
    (safe : outline.Safe (fun phase value => post phase (value.mapError rename)) phase
      program.run) : outline.Safe post phase (ExceptT.adapt rename program).run :=
  Safe.bind safe

/-- A loop is safe when each iteration carries what it relies on from the items
still to come to those after it. -/
theorem Safe.forM_rest {γ : Type} {between : List γ → sys.Phase → Prop} {items : List γ}
    {body : γ → Program Op Reply PUnit}
    (each : ∀ item rest phase, item ∈ items → between (item :: rest) phase →
      outline.Safe (fun phase _ => between rest phase) phase (body item))
    {phase : sys.Phase} (start : between items phase) :
    outline.Safe (fun phase _ => between [] phase) phase (items.forM body) := by
  induction items generalizing phase with
  | nil => exact start
  | cons item items ih =>
      change outline.Safe _ phase (body item >>= fun _ => items.forM body)
      refine Safe.bind
        ((each item items phase List.mem_cons_self start).mono fun phase _ kept => ?_)
      exact ih (fun other rest phase member =>
        each other rest phase (List.mem_cons_of_mem _ member)) kept

/-- A loop is safe when each iteration keeps what it relies on of the phase. -/
theorem Safe.forM {γ : Type} {between : sys.Phase → Prop} {items : List γ}
    {body : γ → Program Op Reply PUnit}
    (each : ∀ item ∈ items, ∀ phase, between phase →
      outline.Safe (fun phase _ => between phase) phase (body item))
    {phase : sys.Phase} (start : between phase) :
    outline.Safe (fun phase _ => between phase) phase (items.forM body) :=
  @Safe.forM_rest Op Reply sys outline γ (fun _ => between) items body
    (fun item _ phase member kept => each item member phase kept) phase start

/-- A loop whose iterations may fail; the first failure ends it. -/
theorem Safe.except_forM {γ ε : Type} {between : sys.Phase → Prop} {items : List γ}
    {body : γ → ExceptT ε (Program Op Reply) PUnit}
    (each : ∀ item ∈ items, ∀ phase, between phase →
      outline.Safe (fun phase _ => between phase) phase (body item).run)
    {phase : sys.Phase} (start : between phase) :
    outline.Safe (fun phase _ => between phase) phase (items.forM body).run := by
  induction items generalizing phase with
  | nil => exact start
  | cons item items ih =>
      change outline.Safe _ phase (body item >>= fun _ => items.forM body).run
      refine Safe.except_bind ((each item List.mem_cons_self phase start).mono ?_)
      intro phase value kept
      cases value with
      | ok value => exact ih (fun other member => each other (List.mem_cons_of_mem _ member)) kept
      | error error => exact kept

/-- The commands that matter neither to the invariant nor to the phase. -/
structure Inert (outline : Outline sys) (phase : sys.Phase) (op : Op) : Prop where
  asserts : ∀ state, outline.asserts state phase op
  keeps : ∀ state others reply state', outline.inv state (phase ::ₘ others) →
    sys.exec op state reply state' → outline.inv state' (phase ::ₘ others)
  still : ∀ reply, sys.advance phase op reply = phase

/-- An inert command is skipped. -/
theorem Safe.inert {post : sys.Phase → α → Prop} {phase : sys.Phase} {op : Op}
    (skips : Inert outline phase op) {next : Reply op → Program Op Reply α}
    (rest : ∀ state reply state', sys.exec op state reply state' →
      outline.Safe post phase (next reply)) :
    outline.Safe post phase (.call op next) := by
  intro state others holds _
  refine ⟨skips.asserts state, fun reply state' effect => ?_⟩
  rw [skips.still reply]
  exact ⟨skips.keeps state others reply state' holds effect, rest state reply state' effect⟩

/-- An inert command followed by the rest of a program. -/
theorem Safe.inert_bind {post : sys.Phase → α → Prop} {phase : sys.Phase} {op : Op}
    (skips : Inert outline phase op) {next : Reply op → Program Op Reply α}
    (rest : ∀ state reply state', sys.exec op state reply state' →
      outline.Safe post phase (next reply)) :
    outline.Safe post phase (Program.perform op >>= next) :=
  Safe.inert skips rest

/-- A program of inert commands leaves the phase as it was. -/
theorem Safe.of_only {phase : sys.Phase} {program : Program Op Reply α}
    (only : program.Only (Inert outline phase)) :
    outline.Safe (fun last _ => last = phase) phase program := by
  induction program with
  | ret value => rfl
  | call op next ih => exact Safe.inert only.1 fun _ reply _ _ => ih reply (only.2 reply)

/-- A program of commands of a class all of which are inert. -/
theorem Safe.of_inert {phase : sys.Phase} {allowed : Op → Prop} {program : Program Op Reply α}
    (skips : ∀ op, allowed op → Inert outline phase op) (only : program.Only allowed) :
    outline.Safe (fun last _ => last = phase) phase program :=
  Safe.of_only (only.mono skips)

/-- A program whose commands may be executed in every phase of a class, and stay in it. -/
theorem Safe.of_steps {between : sys.Phase → Prop} {allowed : Op → Prop}
    (step : ∀ op phase, allowed op → between phase → ∀ state others,
      outline.inv state (phase ::ₘ others) → outline.guard state phase op others →
      outline.asserts state phase op ∧ ∀ reply state', sys.exec op state reply state' →
        outline.inv state' (sys.advance phase op reply ::ₘ others) ∧
          between (sys.advance phase op reply))
    {phase : sys.Phase} {program : Program Op Reply α} (only : program.Only allowed)
    (start : between phase) : outline.Safe (fun last _ => between last) phase program := by
  induction program generalizing phase with
  | ret value => exact start
  | call op next ih =>
      intro state others holds permitted
      obtain ⟨asserted, stepped⟩ := step op phase only.1 start state others holds permitted
      refine ⟨asserted, fun reply state' effect => ?_⟩
      obtain ⟨kept, still⟩ := stepped reply state' effect
      exact ⟨kept, ih reply (only.2 reply) still⟩

/-- **Step lemma.** One guarded step keeps the invariant and its outline. -/
theorem Holds.step (stable : outline.Stable) {pool pool' : sys.Pool} (holds : outline.Holds pool)
    (step : Step outline.guard pool pool') : outline.Holds pool' := by
  cases step with
  | command allowed effect =>
      obtain ⟨inv, safe⟩ := holds
      rw [phases_middle] at inv
      have own := safe _ (List.mem_append_right _ List.mem_cons_self) _ _ inv allowed
      obtain ⟨kept, rest⟩ := own.2 _ _ effect
      refine ⟨by rw [phases_middle]; exact kept, fun thread member => ?_⟩
      rcases List.mem_append.mp member with left | right
      · exact safe thread (List.mem_append_left _ left)
      · rcases List.mem_cons.mp right with rfl | right
        · exact rest
        · exact safe thread (List.mem_append_right _ (List.mem_cons_of_mem _ right))
  | finish =>
      obtain ⟨inv, safe⟩ := holds
      rw [phases_middle] at inv
      have own := safe _ (List.mem_append_right _ List.mem_cons_self)
      refine ⟨own _ _ inv, fun thread member => safe thread ?_⟩
      rcases List.mem_append.mp member with left | right
      · exact List.mem_append_left _ left
      · exact List.mem_append_right _ (List.mem_cons_of_mem _ right)
  | start started =>
      obtain ⟨inv, safe⟩ := holds
      obtain ⟨kept, own⟩ := stable.start _ _ _ _ _ started inv
      refine ⟨kept, fun thread member => ?_⟩
      rcases List.mem_cons.mp member with rfl | member
      · exact own
      · exact safe thread member
  | discard discarded =>
      obtain ⟨inv, safe⟩ := holds
      rw [phases_middle] at inv
      refine ⟨stable.discard _ _ _ discarded inv, fun thread member => safe thread ?_⟩
      rcases List.mem_append.mp member with left | right
      · exact List.mem_append_left _ left
      · exact List.mem_append_right _ (List.mem_cons_of_mem _ right)
  | environment changed =>
      exact ⟨stable.environment _ _ _ changed holds.1, holds.2⟩

/-- **Run lemma.** Every pool reached by guarded steps satisfies the outline. -/
theorem Holds.reaches (stable : outline.Stable) {pool pool' : sys.Pool}
    (holds : outline.Holds pool) (run : Reaches outline.guard pool pool') :
    outline.Holds pool' := by
  induction run with
  | refl => exact holds
  | tail _ step ih => exact ih.step stable step

/-- Whatever the outline asserts of a command holds when a run is about to
execute it. -/
theorem Holds.asserted {state : sys.State} {before after : List sys.Thread} {phase : sys.Phase}
    {op : Op} {next : Reply op → Program Op Reply sys.Result}
    (holds : outline.Holds ⟨state, before ++ ⟨phase, .call op next⟩ :: after⟩)
    (allowed : outline.guard state phase op (phases (before ++ after))) :
    outline.asserts state phase op := by
  obtain ⟨inv, safe⟩ := holds
  rw [phases_middle] at inv
  exact (safe _ (List.mem_append_right _ List.mem_cons_self) _ _ inv allowed).1

/-- A pool without runs satisfies the outline when the invariant holds. -/
theorem Holds.of_quiescent {state : sys.State} (inv : outline.inv state 0) :
    outline.Holds ⟨state, []⟩ :=
  ⟨inv, fun _ member => (List.not_mem_nil member).elim⟩

/-- The invariant of a quiescent pool mentions no phase. -/
theorem Holds.quiescent {pool : sys.Pool} (holds : outline.Holds pool)
    (quiescent : pool.Quiescent) : outline.inv pool.state 0 := by
  have inv := holds.1
  rwa [show pool.threads = [] from quiescent] at inv

end Outline

end Concurrency
