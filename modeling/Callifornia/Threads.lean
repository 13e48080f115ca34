import Callifornia.Frame
import Callifornia.Signaling.State

/-! # Runs of the services' programs over the deployment

A setting says which programs may run over the deployment, what is remembered of
each run in its phase, and what is remembered of the whole pool in a ghost state.
It yields the system of `Callifornia.Concurrency.Interleaving`, and proof rules
for the steps the programs are made of.
-/

namespace Callifornia

open Concurrency Concurrency.System Store

/-- Runs of the services' programs over the deployment. -/
structure Threads where
  Phase : Type
  Ghost : Type
  Result : Type
  advance : Phase → (op : Op) → op.Reply → Phase
  start : World × Ghost → Multiset Phase → Phase → Call Result → World × Ghost → Prop
  finish : World × Ghost → Phase → Result → World × Ghost := fun state _ _ => state
  /-- What the setting assumes of a step's reply. -/
  assumed : World → (op : Op) → op.Reply → Prop := fun _ _ _ => True
  discard : World × Ghost → Phase → Prop := fun _ _ => False
  environment : World × Ghost → Multiset Phase → World × Ghost → Prop := fun _ _ _ => False

/-- The system of a setting. -/
def Threads.system (threads : Threads) : System Op Op.Reply where
  State := World × threads.Ghost
  Phase := threads.Phase
  Result := threads.Result
  exec op before reply after :=
    World.exec op before.1 reply after.1 ∧ threads.assumed before.1 op reply ∧ after.2 = before.2
  advance := threads.advance
  start := threads.start
  finish := threads.finish
  discard := threads.discard
  environment := threads.environment

namespace Threads

variable {threads : Threads} {outline : Outline threads.system} {α ε : Type}
  {command : Command}

/-- One Redis command. -/
theorem safe_redis {post : threads.Phase → Except ε α → Prop} {phase : threads.Phase}
    {onFailure : RedisFailure → ε} {rest : command.Reply → ExceptT ε Call α}
    (step : ∀ world ghost others, outline.inv (world, ghost) (phase ::ₘ others) →
      outline.guard (world, ghost) phase (.redis command) others →
      outline.asserts (world, ghost) phase (.redis command) ∧
        ∀ value redis, world.redis.exec world.now command value redis →
          threads.assumed world (.redis command) (.ok value) →
          outline.inv ({ world with redis }, ghost)
            (threads.advance phase (.redis command) (.ok value) ::ₘ others) ∧
          outline.Safe post (threads.advance phase (.redis command) (.ok value))
            (rest value).run) :
    outline.Safe post phase (redisCommand onFailure command >>= rest).run := by
  rintro ⟨world, ghost⟩ others holds allowed
  obtain ⟨asserted, stepped⟩ := step world ghost others holds allowed
  refine ⟨asserted, ?_⟩
  rintro reply ⟨world', ghost'⟩ ⟨⟨value, redis, effect, rfl, replaced⟩, assumed, same⟩
  obtain rfl : world' = { world with redis } := replaced
  obtain rfl : ghost' = ghost := same
  exact stepped value redis effect assumed

/-- One Redis command that ends an operation. -/
theorem safe_redis_last {post : threads.Phase → Except ε command.Reply → Prop}
    {phase : threads.Phase} {onFailure : RedisFailure → ε}
    (step : ∀ world ghost others, outline.inv (world, ghost) (phase ::ₘ others) →
      outline.guard (world, ghost) phase (.redis command) others →
      outline.asserts (world, ghost) phase (.redis command) ∧
        ∀ value redis, world.redis.exec world.now command value redis →
          threads.assumed world (.redis command) (.ok value) →
          outline.inv ({ world with redis }, ghost)
            (threads.advance phase (.redis command) (.ok value) ::ₘ others) ∧
          post (threads.advance phase (.redis command) (.ok value)) (.ok value)) :
    outline.Safe post phase (redisCommand onFailure command).run := by
  rintro ⟨world, ghost⟩ others holds allowed
  obtain ⟨asserted, stepped⟩ := step world ghost others holds allowed
  refine ⟨asserted, ?_⟩
  rintro reply ⟨world', ghost'⟩ ⟨⟨value, redis, effect, rfl, replaced⟩, assumed, same⟩
  obtain rfl : world' = { world with redis } := replaced
  obtain rfl : ghost' = ghost := same
  exact stepped value redis effect assumed

/-- One step that is followed by the rest of a program. -/
theorem safe_step {post : threads.Phase → α → Prop} {phase : threads.Phase} {op : Op}
    {rest : op.Reply → Call α}
    (step : ∀ world ghost others, outline.inv (world, ghost) (phase ::ₘ others) →
      outline.guard (world, ghost) phase op others →
      outline.asserts (world, ghost) phase op ∧
        ∀ reply world', World.exec op world reply world' → threads.assumed world op reply →
          outline.inv (world', ghost) (threads.advance phase op reply ::ₘ others) ∧
          outline.Safe post (threads.advance phase op reply) (rest reply)) :
    outline.Safe post phase (issue op >>= rest) := by
  rintro ⟨world, ghost⟩ others holds allowed
  obtain ⟨asserted, stepped⟩ := step world ghost others holds allowed
  refine ⟨asserted, ?_⟩
  rintro reply ⟨world', ghost'⟩ ⟨effect, assumed, same⟩
  obtain rfl : ghost' = ghost := same
  exact stepped reply world' effect assumed

/-- Redis answers its `PING`. -/
theorem safe_isRedisAvailable {phase : threads.Phase}
    (skips : outline.Inert phase (.redis .ping)) :
    outline.Safe (fun last available => last = phase ∧ available = true) phase
      Signaling.State.isRedisAvailable := by
  refine Outline.Safe.inert skips fun state reply after effect => ?_
  obtain ⟨⟨value, redis, -, answered, -⟩, -⟩ := effect
  subst answered
  exact ⟨rfl, rfl⟩

end Threads

end Callifornia
