import Callifornia.Concurrency.Interleaving

/-! # Contracts for interleaved runs

A contract says which commands a run may execute in each of its phases, what it may rely on of
the replies, and which invariant of the state and the phases this keeps. Whether a program meets
its contract is a property of the program alone: it may pass what a reply is relied on for to
its later commands. Pools of programs that meet a sound contract keep the invariant in every
interleaving.
-/

namespace Concurrency

open Concurrency.System

variable {Op : Type} {Reply : Op → Type}

/-- What the runs of a system rely on, what they do, and what they keep. -/
structure Contract (sys : System Op Reply) where
  rely : (op : Op) → Reply op → Prop
  allowed : sys.Phase → Op → Prop
  inv : sys.State → Multiset sys.Phase → Prop

namespace Contract

variable {sys : System Op Reply} (contract : Contract sys) {α β ε : Type}

/-- As long as it gets replies it relies on, the program executes allowed commands only, and it
returns a value that satisfies `ends` together with the last phase. -/
def Meets (ends : sys.Phase → α → Prop) : sys.Phase → Program Op Reply α → Prop
  | phase, .ret value => ends phase value
  | phase, .call op next => contract.allowed phase op ∧ ∀ reply, contract.rely op reply →
      Meets ends (sys.advance phase op reply) (next reply)

/-- What holds of the phase of a run goes on to hold. -/
def Stable (sys : System Op Reply) (keeps : sys.Phase → Prop) : Prop :=
  ∀ phase op reply, keeps phase → keeps (sys.advance phase op reply)

/-- The program meets the contract from every phase of a kind, and ends in one. -/
def Admits (keeps : sys.Phase → Prop) (program : Program Op Reply α) : Prop :=
  ∀ phase, keeps phase → contract.Meets (fun last _ => keeps last) phase program

variable {contract} {phase : sys.Phase} {keeps : sys.Phase → Prop}

/-- A program that meets a postcondition meets a weaker one. -/
theorem Meets.mono {strong weak : sys.Phase → α → Prop}
    (implies : ∀ phase value, strong phase value → weak phase value)
    {program : Program Op Reply α} (meets : contract.Meets strong phase program) :
    contract.Meets weak phase program := by
  induction program generalizing phase with
  | ret value => exact implies phase value meets
  | call op next ih =>
      obtain ⟨allowed, rest⟩ := meets
      exact ⟨allowed, fun reply relied => ih reply (rest reply relied)⟩

/-- A sequence meets what its second part meets where the first one ends. -/
theorem Meets.bind {ends : sys.Phase → β → Prop} {program : Program Op Reply α}
    {rest : α → Program Op Reply β}
    (first : contract.Meets (fun phase value => contract.Meets ends phase (rest value)) phase
      program) : contract.Meets ends phase (program >>= rest) := by
  induction program generalizing phase with
  | ret value => exact first
  | call op next ih =>
      obtain ⟨allowed, second⟩ := first
      exact ⟨allowed, fun reply relied => ih reply (second reply relied)⟩

/-- A composed program that may fail stops at the first error. -/
theorem Meets.except_bind {ends : sys.Phase → Except ε β → Prop}
    {program : ExceptT ε (Program Op Reply) α} {rest : α → ExceptT ε (Program Op Reply) β}
    (first : contract.Meets (fun phase value => match value with
      | .ok value => contract.Meets ends phase (rest value).run
      | .error error => ends phase (.error error)) phase program.run) :
    contract.Meets ends phase (program >>= rest).run := by
  rw [ExceptT.run_bind]
  refine Meets.bind (first.mono fun phase value meets => ?_)
  cases value with
  | ok value => exact meets
  | error error => exact meets

/-! ## Programs that meet the contract from many phases -/

/-- Two facts that tasks do not lose. -/
theorem Stable.and {also : sys.Phase → Prop} (first : Stable sys keeps)
    (second : Stable sys also) : Stable sys fun phase => keeps phase ∧ also phase :=
  fun phase op reply both => ⟨first phase op reply both.1, second phase op reply both.2⟩

/-- A value takes no step. -/
theorem Admits.ret (value : α) : contract.Admits keeps (.ret value : Program Op Reply α) :=
  fun _ => id

/-- A command that is allowed in these phases. -/
theorem Admits.perform (stable : Stable sys keeps) {op : Op}
    (allowed : ∀ phase, keeps phase → contract.allowed phase op) :
    contract.Admits keeps (Program.perform op) :=
  fun phase holds => ⟨allowed phase holds, fun reply _ => stable phase op reply holds⟩

/-- A sequence is admitted if its parts are. -/
theorem Admits.bind {program : Program Op Reply α} {rest : α → Program Op Reply β}
    (first : contract.Admits keeps program)
    (second : ∀ value, contract.Admits keeps (rest value)) :
    contract.Admits keeps (program >>= rest) :=
  fun phase holds => Meets.bind ((first phase holds).mono fun phase value holds =>
    second value phase holds)

/-- So is a sequence that stops at an error. -/
theorem Admits.except_bind {program : ExceptT ε (Program Op Reply) α}
    {rest : α → ExceptT ε (Program Op Reply) β} (first : contract.Admits keeps program.run)
    (second : ∀ value, contract.Admits keeps (rest value).run) :
    contract.Admits keeps (program >>= rest).run := by
  rw [ExceptT.run_bind]
  refine first.bind fun value => ?_
  cases value with
  | ok value => exact second value
  | error error => exact Admits.ret _

/-- A part that cannot fail is admitted among those that can. -/
theorem Admits.lift {program : Program Op Reply α} (admits : contract.Admits keeps program) :
    contract.Admits keeps (liftM program : ExceptT ε (Program Op Reply) α).run :=
  admits.bind fun _ => Admits.ret _

/-- Renaming errors takes no step. -/
theorem Admits.adapt {ε' : Type} {rename : ε → ε'} {program : ExceptT ε (Program Op Reply) α}
    (admits : contract.Admits keeps program.run) :
    contract.Admits keeps (ExceptT.adapt rename program).run :=
  Admits.bind admits fun _ => Admits.ret _

/-- Forgetting the result takes no step. -/
theorem Admits.mapConst {value : β} {program : Program Op Reply α}
    (admits : contract.Admits keeps program) :
    contract.Admits keeps (Functor.mapConst value program) :=
  Admits.bind admits fun _ => Admits.ret _

/-- A loop is admitted if its body is, for every item. -/
theorem Admits.forM {γ : Type} {items : List γ} {body : γ → Program Op Reply PUnit}
    (each : ∀ item ∈ items, contract.Admits keeps (body item)) :
    contract.Admits keeps (items.forM body) := by
  induction items with
  | nil => exact Admits.ret _
  | cons item items ih =>
      change contract.Admits keeps (body item >>= fun _ => items.forM body)
      exact (each item List.mem_cons_self).bind fun _ =>
        ih fun other member => each other (List.mem_cons_of_mem _ member)

/-- So is a loop that stops at an error. -/
theorem Admits.except_forM {γ : Type} {items : List γ}
    {body : γ → ExceptT ε (Program Op Reply) PUnit}
    (each : ∀ item ∈ items, contract.Admits keeps (body item).run) :
    contract.Admits keeps (items.forM body).run := by
  induction items with
  | nil => exact Admits.ret _
  | cons item items ih =>
      change contract.Admits keeps (body item >>= fun _ => items.forM body).run
      exact (each item List.mem_cons_self).except_bind fun _ =>
        ih fun other member => each other (List.mem_cons_of_mem _ member)

/-- A program whose commands are allowed in phases of a kind and stay in it. -/
theorem admits_of_steps {allowed : Op → Prop}
    (step : ∀ op phase, allowed op → keeps phase →
      contract.allowed phase op ∧ ∀ reply, keeps (sys.advance phase op reply))
    {program : Program Op Reply α} (only : program.Only allowed) :
    contract.Admits keeps program := by
  induction program with
  | ret value => exact Admits.ret value
  | call op next ih =>
      intro phase holds
      obtain ⟨permitted, stays⟩ := step op phase only.1 holds
      exact ⟨permitted, fun reply _ => ih reply (only.2 reply) _ (stays reply)⟩

/-- A program that issues only commands allowed in these phases. -/
theorem admits_of_only (stable : Stable sys keeps) {program : Program Op Reply α}
    (only : program.Only fun op => ∀ phase, keeps phase → contract.allowed phase op) :
    contract.Admits keeps program :=
  admits_of_steps (fun op phase allowed holds =>
    ⟨allowed phase holds, fun reply => stable phase op reply holds⟩) only

/-! ## What a program learns -/

/-- From a phase of a kind the program ends in one, and a value it returns tells something about
the last phase. -/
def Teaches (contract : Contract sys) (keeps : sys.Phase → Prop) (tells : α → sys.Phase → Prop)
    (program : ExceptT ε (Program Op Reply) α) : Prop :=
  ∀ phase, keeps phase → contract.Meets
    (fun last result => keeps last ∧ ∀ value, result = .ok value → tells value last) phase
    program.run

variable {tells : α → sys.Phase → Prop} {program : ExceptT ε (Program Op Reply) α}
  {rest : α → ExceptT ε (Program Op Reply) β}

/-- A failure teaches nothing. -/
theorem Teaches.error (error : ε) : contract.Teaches keeps tells (.mk (.ret (.error error))) := by
  intro phase holds
  refine ⟨holds, fun value same => ?_⟩
  cases same

/-- A value is known to be as the task knows it. -/
theorem Teaches.ret {value : α} (told : ∀ phase, keeps phase → tells value phase) :
    contract.Teaches keeps tells (.mk (.ret (.ok value)) : ExceptT ε (Program Op Reply) α) := by
  intro phase holds
  refine ⟨holds, fun other same => ?_⟩
  obtain rfl := Except.ok.inj same
  exact told phase holds

/-- What is told may be used in the rest. -/
theorem Teaches.bind (first : contract.Teaches keeps tells program)
    (second : ∀ value, contract.Admits (fun phase => keeps phase ∧ tells value phase)
      (rest value).run) : contract.Admits keeps (program >>= rest).run := by
  intro phase holds
  refine Meets.except_bind ((first phase holds).mono fun last result learned => ?_)
  cases result with
  | error error => exact learned.1
  | ok value =>
      refine (second value last ⟨learned.1, learned.2 value rfl⟩).mono ?_
      exact fun _ _ both => both.1

/-- What the first part teaches, the second one may use. -/
theorem Teaches.teaches {also : β → sys.Phase → Prop} (first : contract.Teaches keeps tells program)
    (second : ∀ value, contract.Teaches (fun phase => keeps phase ∧ tells value phase) also
      (rest value)) : contract.Teaches keeps also (program >>= rest) := by
  intro phase holds
  refine Meets.except_bind ((first phase holds).mono fun last result learned => ?_)
  cases result with
  | error error => exact ⟨learned.1, fun value same => by cases same⟩
  | ok value =>
      refine (second value last ⟨learned.1, learned.2 value rfl⟩).mono ?_
      exact fun _ _ both => ⟨both.1.1, both.2⟩

/-- A part that teaches nothing may come first. -/
theorem Admits.teaches {also : β → sys.Phase → Prop} (first : contract.Admits keeps program.run)
    (second : ∀ value, contract.Teaches keeps also (rest value)) :
    contract.Teaches keeps also (program >>= rest) := by
  intro phase holds
  refine Meets.except_bind ((first phase holds).mono fun last result holds => ?_)
  cases result with
  | error error => exact ⟨holds, fun value same => by cases same⟩
  | ok value => exact second value last holds

/-- Renaming errors teaches the same. -/
theorem Teaches.adapt {ε' : Type} {rename : ε → ε'} (first : contract.Teaches keeps tells program) :
    contract.Teaches keeps tells (ExceptT.adapt rename program) := by
  intro phase holds
  refine Meets.bind ((first phase holds).mono fun last result learned => ?_)
  refine ⟨learned.1, fun value same => learned.2 value ?_⟩
  cases result with
  | error error => cases same
  | ok other => exact congrArg _ (Except.ok.inj same)

/-! ## What holds between the parts of a program -/

/-- From a phase of one kind the program gets to one of another kind, which may depend on the value
it returns, or it fails. -/
def Yields (contract : Contract sys) (first : sys.Phase → Prop) (last : α → sys.Phase → Prop)
    (program : ExceptT ε (Program Op Reply) α) : Prop :=
  ∀ phase, first phase → contract.Meets
    (fun phase result => ∀ value, result = .ok value → last value phase) phase program.run

variable {first : sys.Phase → Prop} {last : α → sys.Phase → Prop}
  {next : β → sys.Phase → Prop}

/-- A failure yields nothing. -/
theorem Yields.error (error : ε) : contract.Yields first last (.mk (.ret (.error error))) := by
  intro phase _ value same
  cases same

/-- A value yields what holds already. -/
theorem Yields.ret {value : α} (holds : ∀ phase, first phase → last value phase) :
    contract.Yields first last (.mk (.ret (.ok value)) : ExceptT ε (Program Op Reply) α) := by
  intro phase before other same
  obtain rfl := Except.ok.inj same
  exact holds phase before

/-- A sequence yields what its second part does. -/
theorem Yields.bind (yields : contract.Yields first last program)
    (rests : ∀ value, contract.Yields (last value) next (rest value)) :
    contract.Yields first next (program >>= rest) := by
  intro phase before
  refine Meets.except_bind ((yields phase before).mono fun phase result after => ?_)
  cases result with
  | error error =>
      intro value same
      cases same
  | ok value => exact rests value phase (after value rfl)

/-- A part that yields much from little yields less from more. -/
theorem Yields.mono {first' : sys.Phase → Prop} {last' : α → sys.Phase → Prop}
    (yields : contract.Yields first last program) (before : ∀ phase, first' phase → first phase)
    (after : ∀ value phase, last value phase → last' value phase) :
    contract.Yields first' last' program :=
  fun phase holds => (yields phase (before phase holds)).mono fun phase _ ends value same =>
    after value phase (ends value same)

/-- A program that goes on to meet its contract, whatever it returns. -/
theorem Admits.yields (admits : contract.Admits keeps program.run) :
    contract.Yields keeps (fun _ => keeps) program :=
  fun phase before => (admits phase before).mono fun _ _ after _ _ => after

/-- A part that is admitted yields what it keeps. -/
theorem Yields.lift {program : Program Op Reply α} (admits : contract.Admits keeps program) :
    contract.Yields keeps (fun _ => keeps) (liftM program : ExceptT ε (Program Op Reply) α) :=
  Admits.yields admits.lift

/-- A loop yields what each turn of it keeps. -/
theorem Yields.forM {γ : Type} {items : List γ} {body : γ → ExceptT ε (Program Op Reply) PUnit}
    (each : ∀ item ∈ items, contract.Yields keeps (fun _ => keeps) (body item)) :
    contract.Yields keeps (fun _ => keeps) (items.forM body) := by
  induction items with
  | nil => exact Yields.ret fun _ => id
  | cons item items ih =>
      change contract.Yields keeps _ (body item >>= fun _ => items.forM body)
      exact (each item List.mem_cons_self).bind fun _ =>
        ih fun other member => each other (List.mem_cons_of_mem _ member)

/-! ## Systems of programs that meet the contract -/

/-- Allowed commands keep the invariant and give the replies that are relied on. -/
def Sound (contract : Contract sys) : Prop :=
  ∀ state phase others op reply state', contract.inv state (phase ::ₘ others) →
    contract.allowed phase op → sys.exec op state reply state' →
    contract.rely op reply ∧ contract.inv state' (sys.advance phase op reply ::ₘ others)

/-- The programs that start meet the contract, and nothing but their commands threatens its
invariant. -/
structure Governs (contract : Contract sys) : Prop where
  sound : contract.Sound
  start : ∀ state others phase program state', sys.start state others phase program state' →
    contract.inv state others → contract.inv state' (phase ::ₘ others) ∧
      contract.Meets (fun _ _ => True) phase program
  finish : ∀ state phase result others, contract.inv state (phase ::ₘ others) →
    contract.inv (sys.finish state phase result) others
  discard : ∀ state phase others, sys.discard state phase →
    contract.inv state (phase ::ₘ others) → contract.inv state others
  environment : ∀ state others state', sys.environment state others state' →
    contract.inv state others → contract.inv state' others

/-- The invariant holds and every run meets the contract. -/
def Holds (contract : Contract sys) (pool : sys.Pool) : Prop :=
  contract.inv pool.state (phases pool.threads) ∧
    ∀ thread ∈ pool.threads, contract.Meets (fun _ _ => True) thread.phase thread.program

/-- A state without tasks holds if its invariant does. -/
theorem Holds.of_quiescent {state : sys.State} (inv : contract.inv state 0) :
    contract.Holds ⟨state, []⟩ :=
  ⟨inv, fun _ member => (List.not_mem_nil member).elim⟩

/-- **Step lemma.** A step of the pool keeps the invariant and the contract of every run. -/
theorem Holds.step (governs : contract.Governs) {pool pool' : sys.Pool}
    (holds : contract.Holds pool) (step : Step unguarded pool pool') : contract.Holds pool' := by
  obtain ⟨inv, meets⟩ := holds
  cases step with
  | command _ effect =>
      rw [phases_middle] at inv
      obtain ⟨allowed, rest⟩ := meets _ (List.mem_append_right _ List.mem_cons_self)
      obtain ⟨relied, kept⟩ := governs.sound _ _ _ _ _ _ inv allowed effect
      refine ⟨by rw [phases_middle]; exact kept, fun thread member => ?_⟩
      rcases List.mem_append.mp member with left | right
      · exact meets thread (List.mem_append_left _ left)
      · rcases List.mem_cons.mp right with rfl | right
        · exact rest _ relied
        · exact meets thread (List.mem_append_right _ (List.mem_cons_of_mem _ right))
  | finish =>
      rw [phases_middle] at inv
      refine ⟨governs.finish _ _ _ _ inv, fun thread member => meets thread ?_⟩
      rcases List.mem_append.mp member with left | right
      · exact List.mem_append_left _ left
      · exact List.mem_append_right _ (List.mem_cons_of_mem _ right)
  | start started =>
      obtain ⟨kept, own⟩ := governs.start _ _ _ _ _ started inv
      refine ⟨kept, fun thread member => ?_⟩
      rcases List.mem_cons.mp member with rfl | member
      · exact own
      · exact meets thread member
  | discard discarded =>
      rw [phases_middle] at inv
      refine ⟨governs.discard _ _ _ discarded inv, fun thread member => meets thread ?_⟩
      rcases List.mem_append.mp member with left | right
      · exact List.mem_append_left _ left
      · exact List.mem_append_right _ (List.mem_cons_of_mem _ right)
  | environment changed => exact ⟨governs.environment _ _ _ changed inv, meets⟩

/-- **Run lemma.** The invariant of a contract holds whatever the interleaving. -/
theorem Holds.reaches (governs : contract.Governs) {pool pool' : sys.Pool}
    (holds : contract.Holds pool) (run : Reaches unguarded pool pool') : contract.Holds pool' := by
  induction run with
  | refl => exact holds
  | tail _ step ih => exact ih.step governs step

/-! ## A further invariant -/

/-- What the steps allowed by a guard keep as well. -/
structure Keeps (contract : Contract sys) (guard : sys.Guard)
    (also : sys.State → Multiset sys.Phase → Prop) : Prop where
  step : ∀ state phase others op reply state', contract.inv state (phase ::ₘ others) →
    also state (phase ::ₘ others) → contract.allowed phase op → guard state phase op others →
    sys.exec op state reply state' → also state' (sys.advance phase op reply ::ₘ others)
  start : ∀ state others phase program state', sys.start state others phase program state' →
    also state others → also state' (phase ::ₘ others)
  finish : ∀ state phase result others, also state (phase ::ₘ others) →
    also (sys.finish state phase result) others
  discard : ∀ state phase others, sys.discard state phase → also state (phase ::ₘ others) →
    also state others
  environment : ∀ state others state', sys.environment state others state' →
    also state others → also state' others

variable {guard : sys.Guard} {also : sys.State → Multiset sys.Phase → Prop}

/-- **Step lemma.** What the steps keep as well survives a step of the pool. -/
theorem Keeps.step_pool (keeps : contract.Keeps guard also) {pool pool' : sys.Pool}
    (holds : contract.Holds pool) (additional : also pool.state (phases pool.threads))
    (step : Step guard pool pool') : also pool'.state (phases pool'.threads) := by
  cases step with
  | command permitted effect =>
      obtain ⟨inv, meets⟩ := holds
      obtain ⟨allowed, -⟩ := meets _ (List.mem_append_right _ List.mem_cons_self)
      rw [phases_middle] at inv additional ⊢
      exact keeps.step _ _ _ _ _ _ inv additional allowed permitted effect
  | finish =>
      rw [phases_middle] at additional
      exact keeps.finish _ _ _ _ additional
  | start started => exact keeps.start _ _ _ _ _ started additional
  | discard discarded =>
      rw [phases_middle] at additional
      exact keeps.discard _ _ _ discarded additional
  | environment changed => exact keeps.environment _ _ _ changed additional

/-- A guarded run is a run. -/
theorem Holds.guarded (governs : contract.Governs) {pool pool' : sys.Pool}
    (holds : contract.Holds pool) (run : Reaches guard pool pool') : contract.Holds pool' :=
  holds.reaches governs (reaches_unguarded run)

/-- **Run lemma.** What the guarded steps keep as well holds from any pool on. -/
theorem Holds.retains (governs : contract.Governs) (keeps : contract.Keeps guard also)
    {pool pool' : sys.Pool} (holds : contract.Holds pool)
    (additional : also pool.state (phases pool.threads)) (run : Reaches guard pool pool') :
    also pool'.state (phases pool'.threads) := by
  induction run with
  | refl => exact additional
  | tail before step ih => exact keeps.step_pool (holds.guarded governs before) ih step

end Contract

end Concurrency
