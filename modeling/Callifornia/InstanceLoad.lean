import Callifornia.Concurrency.Traces
import Callifornia.Service
import Callifornia.Signaling.Handlers
import Callifornia.Signaling.Permission
import Mathlib.Data.Finset.Card
import Mathlib.Logic.Relation

/-! # The load of a signaling node

An attach counts its connection in the node's load. A logout stops counting it, and so does
the end of the connection, unless the session is gone by then.
-/

namespace Callifornia.InstanceLoad

open Concurrency Concurrency.Program Store Signaling Permission Relation
open TokenFormat (openJwt)

/-! ## The steps of a node -/

/-- What these steps reply depends on other processes. -/
def Wavers : Op → Prop
  | .trySend .. | .createPeer .. | .deletePeer .. | .handleSdp .. | .addIceCandidate .. => True
  | _ => False

/-- The effect of a step. Redis never fails; a channel may refuse a message and a call of an
SFU may fail, at any time. -/
def Happens (op : Op) (before : World) (reply : op.Reply) (after : World) : Prop :=
  World.exec op before reply after ∨
    Wavers op ∧ after.redis = before.redis ∧ after.nodes = before.nodes ∧
      ∀ connection, contextOf connection after = contextOf connection before

/-- Report an error to the client; whether the connection goes on. -/
def answer (connection : ConnectionId) : Except WsHandlerError Unit → Call Bool
  | .ok () => return true
  | .error .writeFailed => return false
  | .error error =>
      issue (.sendMessage connection (.error (mapError error).1 (mapError error).2))

/-- The attached connections after a message that has succeeded. -/
def completed (connection : ConnectionId) (attached : Finset ConnectionId) :
    ClientMessage → Finset ConnectionId
  | .attach _ => insert connection attached
  | .logout .. => attached.erase connection
  | _ => attached

/-- The attached connections after a message. -/
def next (connection : ConnectionId) (message : ClientMessage)
    (result : Except WsHandlerError Unit) (goes : Bool) (attached : Finset ConnectionId) :
    Finset ConnectionId :=
  if goes then
    match result with
    | .ok () => completed connection attached message
    | .error _ => attached
  else attached.erase connection

section

variable (state : State) (jwt : Jwt)

/-- One handler runs alone, or something happens elsewhere. Besides the deployment a run
keeps the open connections that have completed an attach and no logout since. A connection
that cannot be written to ends. -/
inductive Step (lets : ConnectionId → World → Prop) :
    World × Finset ConnectionId → World × Finset ConnectionId → Prop
  | message {connection : ConnectionId} {message : ClientMessage} {before middle last after : World}
      {result : Except WsHandlerError Unit} {goes : Bool} {attached : Finset ConnectionId} :
      (handleClientMessage state connection jwt message).run.Runs Happens before result middle →
      (answer connection result).Runs Happens middle goes last →
      (if goes = true then after = last
        else lets connection last ∧ (endConnection state connection).Runs Happens last () after) →
      Step lets (before, attached) (after, next connection message result goes attached)
  | disconnect {connection : ConnectionId} {before after : World} {attached : Finset ConnectionId} :
      lets connection before → (endConnection state connection).Runs Happens before () after →
      Step lets (before, attached) (after, attached.erase connection)
  | logout {sessionId : SessionId} {result : Except Connector.HandlerError Unit}
      {before after : World} {attached : Finset ConnectionId} :
      (Connector.logout sessionId).run.Runs Happens before result after →
      Step lets (before, attached) (after, attached)
  | elsewhere {before after : World} {attached : Finset ConnectionId} :
      after.redis.score .instanceLoad state.config.publicNodeId =
        before.redis.score .instanceLoad state.config.publicNodeId →
      (∀ connection, contextOf connection after = contextOf connection before) →
      Step lets (before, attached) (after, attached)

/-- The load of the node. -/
def load (world : World) : ℤ := world.redis.score .instanceLoad state.config.publicNodeId

/-- A counted connection ends only while the node remembers its session or its hash is
there. -/
def Recalled (connection : ConnectionId) (world : World) : Prop :=
  (contextOf connection world).instanceLoadRegistered = true →
    ∀ sessionId ∈ (contextOf connection world).sessionId,
      (world.roster.recalled state.node sessionId).isSome = true

/-- The contexts know which connections are counted, and how high the load is. -/
structure Tallied (world : World) (attached : Finset ConnectionId) (count : ℤ) : Prop where
  counted : ∀ connection,
    connection ∈ attached ↔ (contextOf connection world).instanceLoadRegistered = true
  bound : ∀ connection ∈ attached, (contextOf connection world).sessionId.isSome = true
  load : load state world = count

end

/-! ## Steps that count nobody -/

/-- The step leaves the load and who is counted as they are. -/
def Spares : Op → Prop
  | .redis command => ¬ command.WritesScores .instanceLoad
  | .setContext _ change => Steady change
  | _ => True

variable {state : State} {jwt : Jwt} {connection : ConnectionId} {world after : World}
  {attached : Finset ConnectionId} {count : ℤ} {α : Type}

/-- The count depends on the score and on the contexts. -/
theorem Tallied.congr (tallied : Tallied state world attached count)
    (score : InstanceLoad.load state after = InstanceLoad.load state world)
    (contexts : ∀ connection, contextOf connection after = contextOf connection world) :
    Tallied state after attached count := by
  refine ⟨fun connection => ?_, fun connection member => ?_, ?_⟩
  · rw [contexts]
    exact tallied.counted connection
  · rw [contexts]
    exact tallied.bound connection member
  · exact score.trans tallied.load

/-- The load is a score in Redis. -/
theorem load_congr (scores : after.redis.scores .instanceLoad = world.redis.scores .instanceLoad) :
    load state after = load state world := by
  unfold load Redis.score
  rw [scores]

/-- A context is changed by its own connection. -/
theorem contextOf_setContext {change : ConnectionContext → ConnectionContext} {reply : Unit}
    (step : Happens (.setContext connection change) world reply after) (query : ConnectionId) :
    contextOf query after =
      if connection = query then change (contextOf connection world)
      else contextOf query world := by
  have step := step.resolve_right fun wavers => wavers.1
  rw [show after = _ from step]
  exact contextOf_setConnection world connection query _

/-- A change of a context is none of the store or the node. -/
theorem redis_setContext {change : ConnectionContext → ConnectionContext} {reply : Unit}
    (step : Happens (.setContext connection change) world reply after) :
    after.redis = world.redis ∧ after.nodes = world.nodes := by
  have step := step.resolve_right fun wavers => wavers.1
  rw [show after = _ from step]
  exact ⟨rfl, rfl⟩

/-- A step that spares the count keeps it. -/
theorem Tallied.step (tallied : Tallied state world attached count) {op : Op} {reply : op.Reply}
    (spares : Spares op) (step : Happens op world reply after) :
    Tallied state after attached count := by
  by_cases writes : WritesContext op
  · cases op with
    | setContext connection change =>
        have contexts := contextOf_setContext step
        refine ⟨fun query => ?_, fun query member => ?_, ?_⟩
        · rw [contexts]
          split
          · rename_i same
            rw [(spares _).1, same]
            exact tallied.counted query
          · exact tallied.counted query
        · rw [contexts]
          split
          · rename_i same
            exact (spares _).2 (same ▸ tallied.bound query member)
          · exact tallied.bound query member
        · exact (load_congr (by rw [(redis_setContext step).1])).trans tallied.load
    | _ => exact writes.elim
  · rcases step with step | ⟨-, redis, -, contexts⟩
    · refine tallied.congr (load_congr ?_) fun connection => exec_context step writes
      refine (World.exec_keepsRedis step).scores .instanceLoad fun command => ?_
      cases op with
      | redis => exact spares command
      | _ => exact command
    · exact tallied.congr (load_congr (by rw [redis])) contexts

/-- A program of such steps keeps it. -/
theorem Tallied.spared (tallied : Tallied state world attached count) {program : Call α}
    (only : program.Only Spares) :
    program.Ensures Happens world fun _ after => Tallied state after attached count :=
  only.ensures (fun _ _ _ _ spares kept step => Tallied.step kept spares step) tallied

/-- A part that counts nobody, and what comes after it. -/
theorem Tallied.follow {β : Type} {program : WsCall α} {rest : α → WsCall β}
    {post : Except WsHandlerError β → World → Prop} (tallied : Tallied state world attached count)
    (only : program.run.Only Spares)
    (succeeds : ∀ value middle, Tallied state middle attached count →
      (rest value).run.Ensures Happens middle post)
    (fails : ∀ error middle, Tallied state middle attached count → post (.error error) middle) :
    (program >>= rest).run.Ensures Happens world post :=
  (tallied.spared only).except_bind succeeds fails

/-- What a handler does besides spares the count. -/
theorem serves_spares (state : State) (connection : ConnectionId) :
    Serves state connection Spares where
  reads command reads := by cases command <;> first | exact id | exact reads.elim
  clock := trivial
  fuel := trivial
  recalls := trivial
  remembers _ steady := steady
  answers _ := trivial
  sends _ _ := trivial
  peers _ _ := trivial
  registers _ _ _ := trivial
  sessions _ := trivial
  creates _ _ _ := trivial
  deletes _ _ _ _ := trivial
  removes _ _ := id
  clears _ := id
  unbinds _ := id
  scores _ _ := SortedSet.noConfusion
  records _ _ := id

/-- Most messages count nobody. -/
theorem spares_of_plain {message : ClientMessage} (attach : ∀ token, message ≠ .attach token)
    (logout : ∀ sessionId participants, message ≠ .logout sessionId participants) :
    (handleClientMessage state connection jwt message).run.Only Spares := by
  have serves : Serves state connection Spares := serves_spares state connection
  cases message with
  | attach token => exact absurd rfl (attach token)
  | logout sessionId participants => exact absurd rfl (logout sessionId participants)
  | sdp => exact serves.handleSdp fun _ _ _ => trivial
  | candidate => exact serves.handleCandidate fun _ _ _ => trivial
  | create sessionId =>
      refine serves.withSessionLock trivial (fun _ _ => id) (fun _ => id) ?_
      exact serves.handleCreateLocked trivial (fun _ _ => SortedSet.noConfusion) (fun _ _ => id)
        fun _ => id
  | join sessionId roomId =>
      refine serves.withSessionLock trivial (fun _ _ => id) (fun _ => id) ?_
      exact serves.handleJoinLocked (fun _ => id) id
  | leave => exact serves.handleLeave id

/-- A logout at the connector counts nobody. -/
theorem connector_spares (sessionId : SessionId) :
    (Connector.logout sessionId).run.Only Spares := by
  have read : (Connector.redis (Connector.sessionGet sessionId)).run.Only Spares :=
    Only.adapt ((redisCommand_only id).except_bind fun _ => trivial)
  refine read.except_bind fun found => ?_
  cases found with
  | none => trivial
  | some session =>
      refine (Only.lift (redisCommand_drop_only id)).except_bind fun _ => ?_
      exact (Only.lift (redisCommand_drop_only id)).except_bind fun _ => trivial

/-! ## An attach -/

/-- The load counts the attached connections. -/
abbrev Exact (state : State) (world : World) (attached : Finset ConnectionId) : Prop :=
  Tallied state world attached attached.card

/-- A Redis command. -/
theorem ensures_redis {command : Command} {ε : Type} {onFailure : RedisFailure → ε} :
    (redisCommand onFailure command).run.Ensures Happens world fun result after =>
      ∃ value redis, world.redis.exec world.now command value redis ∧ result = .ok value ∧
        after = { world with redis } := by
  refine ensures_call.mpr fun reply middle step => ensures_ret.mpr ?_
  obtain ⟨value, redis, effect, rfl, rfl⟩ := step.resolve_right fun wavers => wavers.1
  exact ⟨value, redis, effect, rfl, rfl⟩

/-- The context is read as it is. -/
theorem ensures_getContext :
    (getContext connection).Ensures Happens world fun context after =>
      context = contextOf connection world ∧ after = world := by
  refine ensures_call.mpr fun reply middle step => ensures_ret.mpr ?_
  exact step.resolve_right fun wavers => wavers.1

/-- The context is changed as the handler says. -/
theorem ensures_setContext {change : ConnectionContext → ConnectionContext} :
    (setContext connection change).Ensures Happens world fun _ after =>
      (after.redis = world.redis ∧ after.nodes = world.nodes) ∧ ∀ query, contextOf query after =
        if connection = query then change (contextOf connection world)
        else contextOf query world := by
  refine ensures_call.mpr fun reply middle step => ensures_ret.mpr ?_
  exact ⟨redis_setContext step, contextOf_setContext step⟩

/-- Redis answers. -/
theorem ensures_available :
    State.isRedisAvailable.Ensures Happens world fun up after => up = true ∧ after = world := by
  refine ensures_call.mpr fun reply middle step => ?_
  obtain ⟨value, redis, rfl, rfl, rfl⟩ := step.resolve_right fun wavers => wavers.1
  exact ensures_ret.mpr ⟨rfl, rfl⟩

/-- A message to the client closes the exchange. -/
theorem Tallied.answers (tallied : Tallied state world attached count) (message : ServerMessage) :
    (sendMessage connection message).run.Ensures Happens world fun result after =>
      (result = .ok () ∨ result = .error .writeFailed) ∧ Tallied state after attached count := by
  refine Ensures.lift_bind (tallied.spared (issue_only trivial)) fun sent middle kept => ?_
  cases sent with
  | true => exact ensures_except_pure.mpr ⟨.inl rfl, kept⟩
  | false => exact ensures_throw.mpr ⟨.inr rfl, kept⟩

/-- One connection more is counted. -/
theorem increment_ensures (tallied : Tallied state world attached count) :
    (redis (incrementInstanceLoad state.config.publicNodeId)).run.Ensures Happens world
      fun result after => result = .ok () ∧ Tallied state after attached (count + 1) ∧
        ∀ query, contextOf query after = contextOf query world := by
  refine ensures_adapt.mpr (ensures_redis.mono ?_)
  rintro _ _ ⟨_, _, rfl, rfl, rfl⟩
  refine ⟨rfl, ⟨tallied.counted, tallied.bound, ?_⟩, fun _ => rfl⟩
  refine (Redis.score_zadd _ _ _ _ _).trans ?_
  rw [if_pos rfl]
  exact congrArg (· + 1) tallied.load

/-- One connection less is counted. -/
theorem decrement_ensures (tallied : Tallied state world attached count) (positive : 1 ≤ count) :
    (decrementInstanceLoad state.config.publicNodeId).run.Ensures Happens world
      fun result after => result = .ok () ∧ Tallied state after attached (count - 1) ∧
        ∀ query, contextOf query after = contextOf query world := by
  refine ensures_redis.except_bind ?_ ?_
  · rintro current _ ⟨_, _, ⟨rfl, rfl⟩, read, rfl⟩
    cases read
    refine ensures_redis.mono ?_
    rintro _ _ ⟨_, _, rfl, rfl, rfl⟩
    refine ⟨rfl, ⟨tallied.counted, tallied.bound, ?_⟩, fun _ => rfl⟩
    refine (Redis.score_zadd _ _ _ _ _).trans ?_
    rw [if_pos rfl]
    have score : ((world.redis.scores .instanceLoad).lookup state.config.publicNodeId).getD 0 =
        count := tallied.load
    unfold decremented
    rw [score]
    split
    · omega
    · rfl
  · rintro error _ ⟨_, _, -, impossible, -⟩
    cases impossible

/-- The connection notes that it is counted. -/
theorem Tallied.note (tallied : Tallied state world attached count)
    (redis : after.redis = world.redis) {context : ConnectionContext}
    (contexts : ∀ query, contextOf query after =
      if connection = query then context else contextOf query world)
    (registered : context.instanceLoadRegistered = true) (bound : context.sessionId.isSome = true) :
    Tallied state after (insert connection attached) count := by
  refine ⟨fun query => ?_, fun query member => ?_, ?_⟩
  · rw [contexts, Finset.mem_insert]
    split
    · rename_i same
      exact iff_of_true (.inl same.symm) registered
    · rename_i other
      rw [or_iff_right (Ne.symm other)]
      exact tallied.counted query
  · rw [contexts]
    split
    · exact bound
    · rename_i other
      exact tallied.bound query ((Finset.mem_insert.mp member).resolve_left (Ne.symm other))
  · exact (load_congr (by rw [redis])).trans tallied.load

/-- The connection notes that it is not counted. -/
theorem Tallied.erase (tallied : Tallied state world attached count)
    (redis : after.redis = world.redis) {context : ConnectionContext}
    (contexts : ∀ query, contextOf query after =
      if connection = query then context else contextOf query world)
    (unregistered : context.instanceLoadRegistered = false) :
    Tallied state after (attached.erase connection) count := by
  refine ⟨fun query => ?_, fun query member => ?_, ?_⟩
  · rw [contexts, Finset.mem_erase]
    split
    · rename_i same
      refine iff_of_false (fun member => member.1 same.symm) ?_
      rw [unregistered]
      exact Bool.false_ne_true
    · rename_i other
      rw [and_iff_right (Ne.symm other)]
      exact tallied.counted query
  · rw [contexts, if_neg (Ne.symm (Finset.ne_of_mem_erase member))]
    exact tallied.bound query (Finset.mem_of_mem_erase member)
  · exact (load_congr (by rw [redis])).trans tallied.load

/-- An attach that has found its session. -/
theorem attachSession_counts (exact : Exact state world attached) (fresh : connection ∉ attached)
    {claims : ConnectorClaims} {session : SessionState} :
    (do
      redis (sessionSetOwner claims.sessionId state.config.publicNodeId)
      setContext connection fun context =>
        { context with
          sessionId := some claims.sessionId
          cachedSession := some session
          allowedIntent := some claims.intent
          allowedRoomId := claims.roomId }
      redis (incrementInstanceLoad state.config.publicNodeId)
      setContext connection fun context =>
        { context with
          instanceLoadRegistered := true
          leaseRenewer := some claims.sessionId }
      state.upsertSession claims.sessionId session
      sendMessage connection (.attached session.nickname claims.sessionId) :
        WsCall Unit).run.Ensures Happens world fun result after =>
          (∃ error, result = .error error) ∧ Exact state after attached ∨
            (result = .ok () ∨ result = .error .writeFailed) ∧
              Exact state after (insert connection attached) := by
  have owns : (redis (sessionSetOwner claims.sessionId
      state.config.publicNodeId)).run.Only Spares :=
    Only.adapt (redisCommand_only id)
  refine exact.follow owns (fun _ owned kept => ?_) fun error _ kept => .inl ⟨⟨error, rfl⟩, kept⟩
  have grants : (setContext connection fun context =>
      { context with
        sessionId := some claims.sessionId
        cachedSession := some session
        allowedIntent := some claims.intent
        allowedRoomId := claims.roomId }).Only Spares :=
    issue_only fun _ => ⟨rfl, fun _ => rfl⟩
  refine ((kept.spared grants).and ensures_setContext).lift_bind ?_
  rintro _ granted ⟨kept, -, contexts⟩
  have bound := congrArg (·.sessionId) ((contexts connection).trans (if_pos rfl))
  refine (increment_ensures kept).except_bind ?_ ?_
  · rintro _ counted ⟨-, kept, same⟩
    refine ensures_setContext.lift_bind fun _ noted context => ?_
    obtain ⟨⟨redis, -⟩, contexts⟩ := context
    have bound := (congrArg (·.sessionId) (same connection)).trans bound
    have kept := kept.note redis contexts rfl (congrArg Option.isSome bound)
    have size : ((insert connection attached).card : ℤ) = attached.card + 1 := by
      rw [Finset.card_insert_of_notMem fresh]
      omega
    rw [← size] at kept
    have upserts : (state.upsertSession claims.sessionId session).Only Spares := issue_only trivial
    refine (kept.spared upserts).lift_bind fun _ upserted kept => ?_
    exact (kept.answers _).mono fun result _ sent => .inr sent
  · rintro error _ ⟨impossible, -⟩
    cases impossible

/-- An attach that succeeds counts its connection. -/
theorem handleAttach_counts (exact : Exact state world attached) {token : String} :
    (handleAttach state connection jwt token).run.Ensures Happens world fun result after =>
      (∃ error, result = .error error) ∧ Exact state after attached ∨
        (result = .ok () ∨ result = .error .writeFailed) ∧
          Exact state after (insert connection attached) := by
  have serves : Serves state connection Spares := serves_spares state connection
  refine ensures_getContext.lift_bind ?_
  rintro context _ ⟨rfl, rfl⟩
  change (if (contextOf connection _).sessionId.isSome = true then _ else _ :
    WsCall Unit).run.Ensures _ _ _
  split
  · exact ensures_throw.mpr (.inl ⟨⟨_, rfl⟩, exact⟩)
  rename_i free
  have fresh : connection ∉ attached := fun member => free (exact.bound connection member)
  refine exact.follow serves.requireRedis (fun _ checked exact => ?_)
    fun error _ exact => .inl ⟨⟨error, rfl⟩, exact⟩
  refine exact.follow (serves.admitToken fun _ _ => id) (fun claims admitted exact => ?_)
    fun error _ exact => .inl ⟨⟨error, rfl⟩, exact⟩
  refine exact.follow (Only.adapt (serves.sessionGet _)) (fun found read exact => ?_)
    fun error _ exact => .inl ⟨⟨error, rfl⟩, exact⟩
  split
  · exact ensures_throw.mpr (.inl ⟨⟨_, rfl⟩, exact⟩)
  · exact attachSession_counts exact fresh

/-! ## A logout -/

/-- Whoever is counted counts. -/
theorem one_le_card (member : connection ∈ attached) : (1 : ℤ) ≤ attached.card := by
  have positive := Finset.card_pos.mpr ⟨connection, member⟩
  omega

/-- One connection fewer is counted. -/
theorem card_erase (member : connection ∈ attached) :
    ((attached.erase connection).card : ℤ) = attached.card - 1 := by
  have size := Finset.card_erase_add_one member
  omega

/-- A Redis operation that succeeds, as a part of a handler. -/
theorem succeeds_redis {program : RedisCall Unit} {holds : World → Prop}
    (succeeds : program.run.Ensures Happens world fun result after =>
      result = .ok () ∧ holds after) :
    (redis program).run.Ensures Happens world fun result after =>
      result = .ok () ∧ holds after := by
  refine ensures_adapt.mpr (succeeds.mono ?_)
  rintro _ after ⟨rfl, held⟩
  exact ⟨rfl, held⟩

/-- A counted connection is no longer counted, in its context and in the score. -/
theorem uncountConnection_counts (exact : Exact state world attached) :
    (uncountConnection state connection (contextOf connection world)).run.Ensures Happens world
      fun result after => result = .ok () ∧ Exact state after (attached.erase connection) := by
  unfold uncountConnection
  split
  · rename_i registered
    have member := (exact.counted connection).mpr registered
    have decrements := succeeds_redis (decrement_ensures exact (one_le_card member))
    refine decrements.except_bind ?_ ?_
    · rintro _ middle ⟨-, kept, -⟩
      refine ensures_lift.mpr (ensures_setContext.mono fun _ last context => ?_)
      refine ⟨rfl, ?_⟩
      have kept := kept.erase context.1.1 context.2 rfl
      rwa [← card_erase member] at kept
    · rintro error _ ⟨impossible, -⟩
      cases impossible
  · rename_i unregistered
    have absent : connection ∉ attached := fun member =>
      unregistered ((exact.counted connection).mp member)
    rw [Finset.erase_eq_of_notMem absent]
    exact ensures_except_pure.mpr ⟨rfl, exact⟩

/-- A Redis operation that counts nobody succeeds. -/
theorem Tallied.succeeds (tallied : Tallied state world attached count) {command : Command}
    (spares : ¬ command.WritesScores .instanceLoad) {ε : Type} {onFailure : RedisFailure → ε} :
    (redisCommand onFailure command).run.Ensures Happens world fun result after =>
      (∃ value, result = .ok value) ∧ Tallied state after attached count := by
  have only : (redisCommand onFailure command).run.Only Spares := redisCommand_only spares
  refine ((tallied.spared only).and ensures_redis).mono ?_
  rintro _ after ⟨kept, value, redis, -, rfl, -⟩
  exact ⟨⟨value, rfl⟩, kept⟩

/-- The same where the reply is dropped. -/
theorem Tallied.drops (tallied : Tallied state world attached count) {command : Command}
    (spares : ¬ command.WritesScores .instanceLoad) {ε : Type} {onFailure : RedisFailure → ε} :
    (do let _ ← redisCommand onFailure command : ExceptT ε Call Unit).run.Ensures Happens world
      fun result after => result = .ok () ∧ Tallied state after attached count := by
  refine (tallied.succeeds spares).except_bind ?_ ?_
  · rintro value middle ⟨-, kept⟩
    exact ensures_except_pure.mpr ⟨rfl, kept⟩
  · rintro error middle ⟨⟨value, impossible⟩, -⟩
    cases impossible

variable {sessionId : SessionId} {nickname : Nickname}

/-- With Redis available, a logout stops counting its connection. -/
theorem logoutRedis_counts (exact : Exact state world attached) :
    (logoutRedis state connection sessionId nickname).run.Ensures Happens world
      fun result after => result = .ok () ∧ Exact state after (attached.erase connection) := by
  refine ensures_available.lift_bind ?_
  rintro _ middle ⟨rfl, rfl⟩
  refine ensures_getContext.lift_bind ?_
  rintro context middle ⟨rfl, rfl⟩
  refine (uncountConnection_counts exact).except_bind ?_ ?_
  · rintro _ uncounted ⟨-, kept⟩
    refine (succeeds_redis (kept.drops id)).except_bind ?_ ?_
    · rintro _ released ⟨-, kept⟩
      exact succeeds_redis (kept.drops id)
    · rintro error _ ⟨impossible, -⟩
      cases impossible
  · rintro error _ ⟨impossible, -⟩
    cases impossible

/-- A logout that succeeds stops counting its connection. -/
theorem handleLogout_counts (exact : Exact state world attached)
    {participants : Option (List String)} :
    (handleLogout state connection sessionId participants).run.Ensures Happens world
      fun result after => (∃ error, result = .error error) ∧ Exact state after attached ∨
        (result = .ok () ∨ result = .error .writeFailed) ∧
          Exact state after (attached.erase connection) := by
  have serves : Serves state connection Spares := serves_spares state connection
  refine exact.follow (serves.checkSession sessionId) (fun session checked exact => ?_)
    fun error _ exact => .inl ⟨⟨error, rfl⟩, exact⟩
  have leaves : (leaveOnLogout state connection sessionId session.nickname participants
      session.roomId).run.Only Spares := by
    cases session.roomId with
    | none => trivial
    | some roomId => exact serves.leaveRoomOf participants id
  refine exact.follow leaves (fun _ left exact => ?_)
    fun error _ exact => .inl ⟨⟨error, rfl⟩, exact⟩
  refine (logoutRedis_counts exact).except_bind ?_ ?_
  · rintro _ uncounted ⟨-, exact⟩
    have removes : (state.removeSession sessionId).Only Spares := issue_only trivial
    refine (exact.spared removes).lift_bind fun _ removed exact => ?_
    refine ensures_setContext.lift_bind fun _ forgotten context => ?_
    have unregistered : (contextOf connection removed).instanceLoadRegistered = false := by
      refine Bool.eq_false_iff.mpr fun registered => ?_
      exact Finset.notMem_erase connection attached ((exact.counted connection).mpr registered)
    have exact := exact.erase context.1.1 context.2 unregistered
    rw [Finset.erase_idem] at exact
    exact (exact.answers _).mono fun result _ sent => .inr sent
  · rintro error _ ⟨impossible, -⟩
    cases impossible

/-! ## The end of a connection -/

/-- What holds of a program that never waits for other processes holds here too. -/
theorem ensures_happens {program : Call α} {post : α → World → Prop}
    (only : program.Only fun op => ¬ Wavers op) (ensures : program.Ensures World.exec world post) :
    program.Ensures Happens world post := by
  constructor
  intro result after run
  refine ensures.holds result after ((only.runs_congr fun op before reply after firm => ?_).mp run)
  exact or_iff_left fun wavers => firm wavers.1

/-- A cleanup finds the session if the node or Redis has it. -/
theorem sessionForCleanup_counts (exact : Exact state world attached) :
    (sessionForCleanup state sessionId).Ensures Happens world fun found after =>
      found = world.roster.recalled state.node sessionId ∧ Exact state after attached := by
  have spares : (sessionForCleanup state sessionId).Only Spares := sessionForCleanup_only trivial id
  have firm : (sessionForCleanup state sessionId).Only fun op => ¬ Wavers op :=
    sessionForCleanup_only id id
  have leaves : (sessionForCleanup state sessionId).Ensures World.exec world
      (Leaves (world.roster.recalled state.node sessionId) world.roster) :=
    sessionForCleanup_leaves (fun _ _ _ _ step => step) state sessionId
  have finds := ensures_happens firm leaves
  exact (finds.and (exact.spared spares)).mono fun found after both => ⟨both.1.1, both.2⟩

/-- A closed connection that was counted is not counted any more; its context still says so. -/
theorem uncountOnDisconnect_counts (exact : Exact state world attached)
    {context : ConnectionContext}
    (counted : connection ∈ attached ↔ context.instanceLoadRegistered = true) :
    (uncountOnDisconnect state context).Ensures Happens world fun _ after =>
      Tallied state after attached (attached.erase connection).card := by
  unfold uncountOnDisconnect
  split
  · rename_i registered
    have member := counted.mpr registered
    rw [card_erase member]
    refine (decrement_ensures exact (one_le_card member)).bind ?_
    rintro _ after ⟨-, kept, -⟩
    exact ensures_ret.mpr kept
  · rename_i unregistered
    rw [Finset.erase_eq_of_notMem fun member => unregistered (counted.mp member)]
    exact ensures_ret.mpr exact

/-- The cleanup of a connection whose session is found if the connection is counted. -/
theorem cleanupSession_counts (exact : Exact state world attached) {context : ConnectionContext}
    (counted : connection ∈ attached ↔ context.instanceLoadRegistered = true)
    (found : context.instanceLoadRegistered = true →
      (world.roster.recalled state.node sessionId).isSome = true) :
    (cleanupSession state context sessionId).Ensures Happens world fun _ after =>
      Tallied state after attached (attached.erase connection).card := by
  have serves : Serves state connection Spares := serves_spares state connection
  have removes : (state.removeSession sessionId).Only Spares := issue_only trivial
  refine ensures_available.bind ?_
  rintro _ middle ⟨rfl, rfl⟩
  refine (sessionForCleanup_counts exact).bind ?_
  rintro recalled middle ⟨rfl, exact⟩
  cases recalled : Roster.recalled _ state.node sessionId with
  | none =>
      have absent : connection ∉ attached := by
        intro member
        have known := found (counted.mp member)
        rw [recalled] at known
        cases known
      rw [Finset.erase_eq_of_notMem absent]
      exact exact.spared removes
  | some session =>
      have leaves : (leaveOnDisconnect state sessionId session.nickname session.roomId).Only
          Spares :=
        serves.leaveOnDisconnect id _
      refine (exact.spared leaves).bind fun _ left exact => ?_
      refine (uncountOnDisconnect_counts exact counted).bind fun _ uncounted kept => ?_
      exact kept.spared removes

/-- A session is looked up in the store and at the node. -/
theorem recalled_congr (same : after.redis = world.redis ∧ after.nodes = world.nodes) :
    after.roster.recalled state.node sessionId = world.roster.recalled state.node sessionId := by
  have session : after.roster.session sessionId = world.roster.session sessionId := by
    simp only [Roster.session, World.roster, same.1]
  have known : after.roster.known state.node sessionId =
      world.roster.known state.node sessionId := by
    simp only [Roster.known, World.roster, same.2]
  unfold Roster.recalled
  rw [session, known]

/-- **The end of a connection stops counting it** if its session is recalled. -/
theorem endConnection_counts (first : Exact state world attached)
    (recalled : Recalled state connection world) :
    (endConnection state connection).Ensures Happens world fun _ after =>
      Exact state after (attached.erase connection) := by
  have cleans : (cleanupConnection state connection).Ensures Happens world fun _ after =>
      Tallied state after attached (attached.erase connection).card := by
    have drops : (setContext connection ({ · with leaseRenewer := none })).Only Spares :=
      issue_only fun _ => ⟨rfl, id⟩
    refine ((first.spared drops).and ensures_setContext).bind ?_
    rintro _ dropped ⟨exact, same, contexts⟩
    refine ensures_getContext.bind ?_
    rintro _ middle ⟨rfl, rfl⟩
    have counted := exact.counted connection
    rw [contexts, if_pos rfl] at counted ⊢
    cases bound : (contextOf connection world).sessionId with
    | none =>
        have absent : connection ∉ attached := by
          intro member
          have held := first.bound connection member
          rw [bound] at held
          cases held
        dsimp only
        rw [Finset.erase_eq_of_notMem absent]
        exact ensures_ret.mpr exact
    | some sessionId =>
        dsimp only
        refine cleanupSession_counts exact counted fun registered => ?_
        rw [recalled_congr same]
        exact recalled registered sessionId bound
  refine cleans.bind fun _ cleaned kept => ?_
  refine ensures_setContext.mono fun _ after context => ?_
  exact kept.erase context.1.1 context.2 rfl

/-! ## Runs of the node -/

/-- A handler that has changed who is counted as far as it got. -/
def Handled (state : State) (connection : ConnectionId) (message : ClientMessage)
    (attached : Finset ConnectionId) (result : Except WsHandlerError Unit) (after : World) : Prop :=
  (∃ error, result = .error error) ∧ Exact state after attached ∨
    (result = .ok () ∨ result = .error .writeFailed) ∧
      Exact state after (completed connection attached message)

/-- Every handler counts its connection as its message says, if it succeeds. -/
theorem handled (exact : Exact state world attached) (message : ClientMessage) :
    (handleClientMessage state connection jwt message).run.Ensures Happens world
      (Handled state connection message attached) := by
  by_cases plain : (∀ token, message ≠ .attach token) ∧
      ∀ sessionId participants, message ≠ .logout sessionId participants
  · have same : completed connection attached message = attached := by
      cases message with
      | attach token => exact absurd rfl (plain.1 token)
      | logout sessionId participants => exact absurd rfl (plain.2 sessionId participants)
      | _ => rfl
    refine (exact.spared (spares_of_plain plain.1 plain.2)).mono fun result after kept => ?_
    unfold Handled
    rw [same]
    cases result with
    | ok => exact .inr ⟨.inl rfl, kept⟩
    | error error => exact .inl ⟨⟨error, rfl⟩, kept⟩
  · cases message with
    | attach token => exact handleAttach_counts exact
    | logout sessionId participants => exact handleLogout_counts exact
    | _ => exact absurd ⟨nofun, nofun⟩ plain

/-- Reporting an error counts nobody, and a connection that cannot be written to ends. -/
theorem answer_counts (exact : Exact state world attached) (result : Except WsHandlerError Unit) :
    (answer connection result).Ensures Happens world fun goes after =>
      (result = .error .writeFailed → goes = false) ∧ Exact state after attached := by
  have spares (message : ServerMessage) : (issue (.sendMessage connection message)).Only Spares :=
    issue_only trivial
  cases result with
  | ok => exact ensures_ret.mpr ⟨nofun, exact⟩
  | error error =>
      cases error with
      | writeFailed => exact ensures_ret.mpr ⟨fun _ => rfl, exact⟩
      | _ => exact (exact.spared (spares _)).mono fun _ _ kept => ⟨nofun, kept⟩

/-- Once it has ended, a connection is not counted, whatever its message did. -/
theorem erase_completed (message : ClientMessage) :
    (completed connection attached message).erase connection = attached.erase connection := by
  cases message with
  | attach token => exact Finset.erase_insert_eq_erase attached connection
  | logout sessionId participants => exact Finset.erase_idem
  | _ => rfl

/-- **A step keeps the count**, if a counted connection ends only while its session is
recalled. -/
theorem Step.exact {first last : World × Finset ConnectionId}
    (step : Step state jwt (Recalled state) first last) (exact : Exact state first.1 first.2) :
    Exact state last.1 last.2 := by
  cases step with
  | @message connection message _ middle told _ result goes _ handles answers ends =>
      have handled := (handled exact message).holds result middle handles
      rcases handled with ⟨⟨error, rfl⟩, kept⟩ | ⟨done, kept⟩
      · obtain ⟨-, kept⟩ := (answer_counts kept _).holds goes told answers
        cases goes with
        | true =>
            obtain rfl := ends
            exact kept
        | false => exact (endConnection_counts kept ends.1).holds () _ ends.2
      · obtain ⟨stops, kept⟩ := (answer_counts kept _).holds goes told answers
        cases goes with
        | true =>
            obtain rfl := ends
            rcases done with rfl | rfl
            · exact kept
            · cases stops rfl
        | false =>
            have kept := (endConnection_counts kept ends.1).holds () _ ends.2
            rwa [erase_completed] at kept
  | disconnect recalled run => exact (endConnection_counts exact recalled).holds () _ run
  | logout run => exact (exact.spared (connector_spares _)).holds _ _ run
  | elsewhere score contexts => exact exact.congr score contexts

/-- No connection is open, and the load is zero. -/
structure Fresh (state : State) (world : World) : Prop where
  empty : ∀ connection, contextOf connection world = {}
  load : load state world = 0

/-- In a fresh deployment nobody is counted. -/
theorem Fresh.exact (fresh : Fresh state world) : Exact state world ∅ := by
  refine ⟨fun connection => ?_, fun connection member => ?_, fresh.load⟩
  · rw [fresh.empty]
    exact iff_of_false (Finset.notMem_empty connection) Bool.false_ne_true
  · exact absurd member (Finset.notMem_empty connection)

/-- **The load counts the attached connections** in every run in which a counted connection
ends only while its session is recalled. -/
theorem load_eq_card {first : World} {last : World × Finset ConnectionId}
    (fresh : Fresh state first)
    (run : ReflTransGen (Step state jwt (Recalled state)) (first, ∅) last) :
    load state last.1 = last.2.card := by
  have exact : Exact state last.1 last.2 := by
    induction run with
    | refl => exact fresh.exact
    | tail _ step ih => exact step.exact ih
  exact exact.load

/-- A program that runs alone runs here too. -/
theorem happens_of_runs {program : Call α} {value : α}
    (run : program.Runs World.exec world value after) : program.Runs Happens world value after :=
  run.mono fun _ _ _ _ => .inl

/-- A message that succeeds is a step. -/
theorem Step.succeeds {lets : ConnectionId → World → Prop} {message : ClientMessage}
    (run : (handleClientMessage state connection jwt message).run.Runs World.exec world (.ok ())
      after) :
    Step state jwt lets (world, attached) (after, completed connection attached message) := by
  have told : (answer connection (.ok ())).Runs Happens after true after := ⟨rfl, rfl⟩
  have step : Step state jwt lets (world, attached)
      (after, next connection message (.ok ()) true attached) :=
    .message (happens_of_runs run) told rfl
  exact step

/-- The two sessions have no connection yet. -/
theorem fresh_twoSessions : Fresh sampleNode twoSessions :=
  ⟨fun _ => rfl, rfl⟩

/-- A connection that attaches and ends is counted no more. -/
theorem load_disconnected : ∃ world,
    ReflTransGen (Step sampleNode openJwt (Recalled sampleNode)) (twoSessions, ∅) (world, ∅) ∧
    load sampleNode world = 0 := by
  obtain ⟨_, middle, attach, passed⟩ := World.exists_runs
    (handleClientMessage sampleNode 0 openJwt (.attach firstToken)).run twoSessions (noHints 12)
    (fun result world => decide (result = .ok () ∧
      (contextOf 0 world).sessionId = some "session-1" ∧
      (world.roster.recalled sampleNode.node "session-1").isSome = true) &&
        ((endConnection sampleNode 0).follow World.sample (noHints 8) world).any fun _ => true)
    (by decide +kernel)
  obtain ⟨attached, ends⟩ := (Bool.and_eq_true _ _).mp passed
  obtain ⟨rfl, bound, recalled⟩ := of_decide_eq_true attached
  obtain ⟨_, last, leaves, -⟩ := World.exists_runs _ _ _ (fun _ _ => true) ends
  have first : Step sampleNode openJwt (Recalled sampleNode) (twoSessions, ∅) (middle, {0}) :=
    .succeeds attach
  have recalls : Recalled sampleNode 0 middle := by
    intro _ sessionId same
    rw [bound] at same
    cases same
    exact recalled
  have second : Step sampleNode openJwt (Recalled sampleNode) (middle, {0}) (last, ∅) :=
    .disconnect recalls (happens_of_runs leaves)
  have run := (ReflTransGen.single first).tail second
  exact ⟨last, run, load_eq_card fresh_twoSessions run⟩

/-- **A connection stays counted**: when somebody else has logged its session out, the end of
the connection finds no session and leaves the load as it is. -/
theorem load_drifts : Fresh sampleNode twoSessions ∧ ∃ world,
    ReflTransGen (Step sampleNode openJwt fun _ _ => True) (twoSessions, ∅) (world, ∅) ∧
    load sampleNode world ≠ (∅ : Finset ConnectionId).card := by
  obtain ⟨results, last, run, passed⟩ := World.exists_runs
    (do
      let attached ← (handleClientMessage sampleNode 0 openJwt (.attach firstToken)).run
      let loggedOut ←
        (handleClientMessage sampleNode 1 openJwt (.logout "session-1" none)).run
      endConnection sampleNode 0
      return (attached, loggedOut)) twoSessions (noHints 40)
    (fun results world => decide (results = (.ok (), .ok ()) ∧ load sampleNode world = 1))
    (by decide +kernel)
  obtain ⟨rfl, one⟩ := of_decide_eq_true passed
  obtain ⟨_, attached, attach, run⟩ := runs_bind.mp run
  obtain ⟨_, loggedOut, logout, run⟩ := runs_bind.mp run
  obtain ⟨_, _, leaves, same, rfl⟩ := runs_bind.mp run
  cases same
  have first : Step sampleNode openJwt (fun _ _ => True) (twoSessions, ∅) (attached, {0}) :=
    .succeeds attach
  have second : Step sampleNode openJwt (fun _ _ => True) (attached, {0})
      (loggedOut, completed 1 {0} (.logout "session-1" none)) :=
    .succeeds logout
  rw [show completed 1 {0} (.logout "session-1" none) = {0} by decide] at second
  have third : Step sampleNode openJwt (fun _ _ => True) (loggedOut, {0}) (last, ∅) :=
    .disconnect trivial (happens_of_runs leaves)
  refine ⟨fresh_twoSessions, last, ((ReflTransGen.single first).tail second).tail third, ?_⟩
  rw [one]
  decide

end Callifornia.InstanceLoad
