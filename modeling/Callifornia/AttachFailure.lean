import Callifornia.Atomicity
import Callifornia.Concurrency.Sequential
import Callifornia.Signaling.Permission

/-! # An attach that fails

An attach runs alone, and one of its Redis commands may fail, with or without effect; no
other follows one that has failed. The connection should be left as it was, so that its
client can attach again.
-/

namespace Callifornia.AttachFailure

open Concurrency Concurrency.Program FiniteMap Store Signaling

variable (state : State) (connection : ConnectionId)

/-- The connection, the sessions of the node and its load are as before. -/
structure Untouched (before after : World) : Prop where
  context : (after.connections connection).context = (before.connections connection).context
  sessions : (after.nodes state.node).sessions = (before.nodes state.node).sessions
  load : after.redis.score .instanceLoad state.config.publicNodeId =
    before.redis.score .instanceLoad state.config.publicNodeId

/-- The command that counts the connection in the node's load. -/
def counting : Op := .redis (.zincr .instanceLoad state.config.publicNodeId 1)

/-- What has failed, if anything, is not the count. -/
def Uncounted (now : World × Option (Fault Op)) : Prop :=
  ∀ committed, now.2 ≠ some ⟨counting state, committed⟩

/-- Nothing has been touched, and the count has not failed. -/
structure Kept (start : World) (now : World × Option (Fault Op)) : Prop
    extends Untouched state connection start now.1 where
  counted : Uncounted state now

/-- The steps of an attach before it changes the connection. -/
def Preparing : Op → Prop
  | .redis .ping | .redis (.hgetall _) | .redis (.setNx ..) | .redis (.hset ..) | .unixNow
  | .getContext _ => True
  | _ => False

variable {state connection} {start : World} {op : Op}

theorem Untouched.trans {first second third : World}
    (one : Untouched state connection first second)
    (two : Untouched state connection second third) : Untouched state connection first third :=
  ⟨two.context.trans one.context, two.sessions.trans one.sessions, two.load.trans one.load⟩

theorem untouched_of_preparing {before after : World} {reply : op.Reply} (prepares : Preparing op)
    (step : World.exec op before reply after) : Untouched state connection before after := by
  have scores {command : Command} {value : command.Reply} {redis : Redis}
      (unwritten : ¬ command.WritesScores .instanceLoad)
      (effect : before.redis.exec before.now command value redis) :
      Untouched state connection before { before with redis } := by
    refine ⟨rfl, rfl, ?_⟩
    rw [Redis.score, Redis.score, (Redis.exec_keeps effect).scores .instanceLoad unwritten]
  cases op with
  | redis command =>
      obtain ⟨value, redis, effect, -, rfl⟩ := step
      cases command with
      | ping | hgetall | setNx | hset => exact scores id effect
      | _ => exact prepares.elim
  | unixNow | getContext =>
      obtain ⟨-, rfl⟩ := step
      exact ⟨rfl, rfl, rfl⟩
  | _ => exact prepares.elim

/-- Any other step leaves the count alone. -/
theorem Uncounted.step {before after : World × Option (Fault Op)} {reply : op.Reply}
    (other : op ≠ counting state) (uncounted : Uncounted state before)
    (step : Atomicity.exec op before reply after) : Uncounted state after := by
  have named {now : Option (Fault Op)} {took : Bool} (failed : now = some ⟨op, took⟩) :
      ∀ committed, now ≠ some ⟨counting state, committed⟩ := by
    rw [failed]
    exact fun _ same => other (congrArg Fault.op (Option.some.inj same))
  rcases step with ⟨-, same⟩ | ⟨-, -, rfl | ⟨-, -, -, failed⟩⟩
  · exact fun committed failed => uncounted committed (same.symm.trans failed)
  · exact named rfl
  · exact named failed

/-- **Step lemma.** Whether it fails or not, a preparing step touches nothing. -/
theorem Kept.step {before after : World × Option (Fault Op)} {reply : op.Reply}
    (prepares : Preparing op) (kept : Kept state connection start before)
    (step : Atomicity.exec op before reply after) : Kept state connection start after := by
  have other : op ≠ counting state := by
    rintro rfl
    exact prepares
  refine ⟨kept.toUntouched.trans ?_, kept.counted.step other step⟩
  rcases step with ⟨⟨-, effect⟩, -⟩ | ⟨-, -, rfl | ⟨-, answer, ⟨-, effect⟩, -⟩⟩
  · exact untouched_of_preparing prepares effect
  · exact ⟨rfl, rfl, rfl⟩
  · exact untouched_of_preparing prepares effect

/-- A part of an attach that only prepares. -/
theorem Kept.ensures {α : Type} {program : Call α} {before : World × Option (Fault Op)}
    (only : program.Only Preparing) (kept : Kept state connection start before) :
    program.Ensures Atomicity.exec before fun _ => Kept state connection start :=
  only.ensures (fun _ _ _ _ prepares kept step => kept.step prepares step) kept

/-! ## The attach -/

/-- An attach that fails before its last message leaves the connection as it was. -/
def Reverts (state : State) (connection : ConnectionId) (start : World)
    (result : Except WsHandlerError Unit) (after : World × Option (Fault Op)) : Prop :=
  ∀ error, result = .error error → error ≠ .writeFailed →
    Untouched state connection start after.1

variable {now : World × Option (Fault Op)} {result : Except WsHandlerError Unit}

theorem Kept.reverts (kept : Kept state connection start now) :
    Reverts state connection start result now ↔ Uncounted state now :=
  iff_of_true (fun _ _ _ => kept.toUntouched) kept.counted

/-- The node has counted the connection: what is left can only fail to be told to the
client. -/
theorem answers_reverts {claims : ConnectorClaims} {session : SessionState}
    (uncounted : Uncounted state now) :
    (do
      setContext connection fun context =>
        { context with
          instanceLoadRegistered := true
          leaseRenewer := some claims.sessionId }
      state.upsertSession claims.sessionId session
      sendMessage connection (.attached session.nickname claims.sessionId) :
        WsCall Unit).run.Ensures Atomicity.exec now fun result after =>
          Reverts state connection start result after ↔ Uncounted state after := by
  have spares {op : Op} {now : World × Option (Fault Op)} (other : op ≠ counting state)
      (uncounted : Uncounted state now) :
      (issue op).Ensures Atomicity.exec now fun _ => Uncounted state :=
    ensures_call.mpr fun _ _ step => ensures_ret.mpr (uncounted.step other step)
  refine (spares (by nofun) uncounted).lift_bind fun _ noted uncounted => ?_
  refine (spares (by nofun) uncounted).lift_bind fun _ upserted uncounted => ?_
  refine (spares (by nofun) uncounted).lift_bind fun sent told uncounted => ?_
  cases sent with
  | true => exact ensures_ret.mpr (iff_of_true nofun uncounted)
  | false =>
      refine ensures_throw.mpr (iff_of_true (fun error failed other => ?_) uncounted)
      exact absurd (Except.error.inj failed).symm other

/-- The connection has its session, and the node is to count it. -/
theorem count_reverts {rest : Unit → WsCall Unit}
    (free : (start.connections connection).context.sessionId = none)
    (bound : (now.1.connections connection).context.sessionId ≠ none)
    (uncounted : Uncounted state now)
    (answers : ∀ now, Uncounted state now →
      (rest ()).run.Ensures Atomicity.exec now fun result after =>
        Reverts state connection start result after ↔ Uncounted state after) :
    (redis (incrementInstanceLoad state.config.publicNodeId) >>= rest).run.Ensures Atomicity.exec
      now fun result after =>
        Reverts state connection start result after ↔ Uncounted state after := by
  refine ensures_except_bind.mpr (ensures_adapt.mpr (ensures_call.mpr fun reply after step => ?_))
  refine ensures_ret.mpr ?_
  rcases step with ⟨⟨succeeded, -⟩, same⟩ | ⟨failed, -, outcome⟩
  · cases reply with
    | error failure => exact absurd trivial succeeded
    | ok value =>
        exact answers after fun committed failed => uncounted committed (same.symm.trans failed)
  · cases reply with
    | ok value => exact failed.elim
    | error failure =>
        -- Whether or not the load has changed, the context is that of an attached connection.
        have counted : ∃ committed, after.2 = some ⟨counting state, committed⟩ := by
          rcases outcome with rfl | ⟨-, -, -, failed⟩
          · exact ⟨false, rfl⟩
          · exact ⟨true, failed⟩
        have connections : after.1.connections = now.1.connections := by
          rcases outcome with rfl | ⟨-, _, ⟨-, _, _, -, -, changed⟩, -⟩
          · rfl
          · rw [changed]
        obtain ⟨committed, counted⟩ := counted
        refine iff_of_false (fun reverts => bound ?_) fun uncounted => uncounted committed counted
        have untouched := reverts _ rfl (by cases failure <;> nofun)
        rw [← connections, untouched.context, free]

/-- **A failed attach leaves the connection as it was if and only if it was not the
command that counts the connection that failed.** -/
theorem handleAttach_reverts_iff (state : State) (connection : ConnectionId) (jwt : Jwt)
    (token : String) (world : World) :
    (handleAttach state connection jwt token).run.Ensures Atomicity.exec (world, none)
      fun result after =>
        Reverts state connection world result after ↔ Uncounted state after := by
  have kept : Kept state connection world (world, none) := ⟨⟨rfl, rfl, rfl⟩, nofun⟩
  have prepares {α β : Type} {program : WsCall α} {rest : α → WsCall β} {now}
      {post : Except WsHandlerError β → World × Option (Fault Op) → Prop}
      (only : program.run.Only Preparing) (kept : Kept state connection world now)
      (goes : ∀ value after, Kept state connection world after →
        (rest value).run.Ensures Atomicity.exec after post)
      (stops : ∀ error after, Kept state connection world after → post (.error error) after) :
      (program >>= rest).run.Ensures Atomicity.exec now post :=
    (kept.ensures only).except_bind goes stops
  refine ensures_lift_bind.mpr (ensures_call.mpr fun context now step => ensures_ret.mpr ?_)
  obtain ⟨rfl, kept⟩ : context = (world.connections connection).context ∧
      Kept state connection world now := by
    have prepares : Preparing (.getContext connection) := trivial
    refine ⟨?_, kept.step prepares step⟩
    rcases step with ⟨⟨-, recalled, -⟩, -⟩ | ⟨failed, -⟩
    · exact recalled
    · exact failed.elim
  change (if (world.connections connection).context.sessionId.isSome = true then _ else _ :
    WsCall Unit).run.Ensures _ _ _
  split
  · exact ensures_throw.mpr kept.reverts
  rename_i free
  refine prepares (requireRedis_only trivial) kept (fun _ now kept => ?_) fun _ _ => Kept.reverts
  refine prepares (admitToken_only trivial fun _ _ => trivial) kept (fun claims now kept => ?_)
    fun _ _ => Kept.reverts
  refine prepares (Only.adapt (sessionGet_only trivial)) kept (fun found now kept => ?_)
    fun _ _ => Kept.reverts
  split
  · exact ensures_throw.mpr kept.reverts
  rename_i session _
  refine prepares (Only.adapt (redisCommand_only trivial)) kept (fun _ now kept => ?_)
    fun _ _ => Kept.reverts
  refine ensures_lift_bind.mpr (ensures_call.mpr fun _ granted step => ensures_ret.mpr ?_)
  have uncounted : Uncounted state granted := kept.counted.step (by nofun) step
  refine count_reverts (Option.not_isSome_iff_eq_none.mp free) ?_ uncounted fun _ => answers_reverts
  rcases step with ⟨⟨-, changed⟩, -⟩ | ⟨failed, -⟩
  · rw [show granted.1 = _ from changed]
    simp [World.setConnection]
  · exact failed.elim

/-- An attach whose last command times out. -/
def uncountable : Option (Except WsHandlerError Unit × World × Option (Fault Op)) :=
  (handleAttach sampleNode 0 TokenFormat.openJwt Permission.firstToken).run.follow Atomicity.sample
    (List.replicate 7 Atomicity.plain ++ [{ fault := some false }]) (Permission.twoSessions, none)

/-- **The count fails**: the attach reports it, and the connection keeps the session. -/
theorem attach_not_reverted : ∃ after : World × Option (Fault Op),
    (handleAttach sampleNode 0 TokenFormat.openJwt Permission.firstToken).run.Runs Atomicity.exec
      (Permission.twoSessions, none) (.error .redisError) after ∧
    ¬ Reverts sampleNode 0 Permission.twoSessions (.error .redisError) after := by
  let test (result : Except WsHandlerError Unit) (after : World × Option (Fault Op)) : Bool :=
    decide (result = .error .redisError ∧
      (after.1.connections 0).context.sessionId = some "session-1")
  have passes : uncountable.any (fun outcome => test outcome.1 outcome.2) = true := by
    decide +kernel
  have sound (hint op now reply after)
      (sampled : Atomicity.sample hint op now = some (reply, after)) :
      Atomicity.exec op now reply after := Atomicity.sample_sound sampled
  obtain ⟨result, after, run, passed⟩ := exists_of_follow sound passes
  obtain ⟨rfl, bound⟩ := of_decide_eq_true passed
  refine ⟨after, run, fun reverts => ?_⟩
  have untouched := reverts .redisError rfl nofun
  rw [untouched.context] at bound
  cases bound

end Callifornia.AttachFailure
