import Callifornia.Signaling.Redis

/-! # Runs of a program alone in the deployment -/

namespace Callifornia

open Concurrency Concurrency.Program Store

variable {α ε : Type} {world after : World}

@[simp] theorem runs_issue {op : Op} {reply : op.Reply} :
    (issue op).Runs World.exec world reply after ↔ World.exec op world reply after := by
  constructor
  · intro ⟨_, _, step, replied, same⟩
    rw [replied, same]
    exact step
  · intro step
    exact ⟨reply, after, step, rfl, rfl⟩

@[simp] theorem runs_unixNow {time : ℤ} :
    unixNow.Runs World.exec world time after ↔
      time = (world.now / 1000 : ℕ) ∧ after = world :=
  runs_issue

/-- A Redis command alone. -/
theorem runs_redisCommand {onFailure : RedisFailure → ε} {command : Command}
    {result : Except ε command.Reply} :
    (redisCommand onFailure command).run.Runs World.exec world result after ↔
      ∃ value redis, world.redis.exec world.now command value redis ∧ result = .ok value ∧
        after = { world with redis } := by
  constructor
  · intro ⟨_, _, ⟨value, redis, step, replied, changed⟩, returned, same⟩
    refine ⟨value, redis, step, ?_, same.trans changed⟩
    rw [returned, replied]
    rfl
  · intro ⟨value, redis, step, returned, changed⟩
    exact ⟨.ok value, _, ⟨value, redis, step, rfl, rfl⟩, returned, changed⟩

/-- A Redis command and the rest of an operation. -/
theorem runs_redisCommand_bind {onFailure : RedisFailure → ε} {command : Command}
    {rest : command.Reply → ExceptT ε Call α} {result : Except ε α} :
    (redisCommand onFailure command >>= rest).run.Runs World.exec world result after ↔
      ∃ value redis, world.redis.exec world.now command value redis ∧
        (rest value).run.Runs World.exec { world with redis } result after := by
  rw [runs_except_bind]
  constructor
  · rintro ⟨_, _, first, run⟩
    obtain ⟨value, redis, step, rfl, rfl⟩ := runs_redisCommand.mp first
    exact ⟨value, redis, step, run⟩
  · rintro ⟨value, redis, step, run⟩
    exact ⟨.ok value, _, runs_redisCommand.mpr ⟨value, redis, step, rfl, rfl⟩, run⟩

end Callifornia
