import Callifornia.Signaling.Websocket

/-! # The steps a signaling node's operations consist of

For each operation, what a predicate on steps has to allow so that every step of
the operation is allowed.
-/

namespace Callifornia

open Concurrency Concurrency.Program Store Signaling

variable {allowed : Op → Prop}

/-- One Redis command. -/
theorem redisCommand_only {ε : Type} {onFailure : RedisFailure → ε} {command : Command}
    (step : allowed (.redis command)) : (redisCommand onFailure command).run.Only allowed :=
  ⟨step, fun _ => trivial⟩

/-- One Redis command whose reply is dropped. -/
theorem redisCommand_drop_only {ε : Type} {onFailure : RedisFailure → ε} {command : Command}
    (step : allowed (.redis command)) :
    (do let _ ← redisCommand onFailure command : ExceptT ε Call Unit).run.Only allowed :=
  (redisCommand_only step).except_bind fun _ => trivial

namespace Signaling

/-- Recording when an SFU became idle reads and writes its record. -/
theorem updateSfuIdleSince_only {instanceId : InstanceId} {time : ℤ}
    (reads : allowed (.redis (.hgetInstance instanceId)))
    (writes : ∀ record, allowed (.redis (.hsetInstance instanceId record))) :
    (updateSfuIdleSince instanceId time).run.Only allowed := by
  refine (redisCommand_only reads).except_bind fun payload => ?_
  cases payload with
  | none => trivial
  | some record => exact redisCommand_only (writes _)

/-- Taking a room off an SFU's load writes the load and, at zero, the record. -/
theorem decrementSfuRoomLoad_only {instanceId : InstanceId}
    (reads : allowed (.redis (.zscore .roomLoad instanceId)))
    (writes : ∀ score, allowed (.redis (.zadd .roomLoad instanceId score)))
    (clock : allowed .unixNow) (record : allowed (.redis (.hgetInstance instanceId)))
    (update : ∀ record, allowed (.redis (.hsetInstance instanceId record))) :
    (decrementSfuRoomLoad instanceId).run.Only allowed := by
  refine (redisCommand_only reads).except_bind fun current => ?_
  refine (redisCommand_only (writes _)).except_bind fun _ => ?_
  split
  · exact ⟨clock, fun now => updateSfuIdleSince_only record update⟩
  · trivial

/-- Closing a binding reads the SFU from it, deletes it and takes the room off the load. -/
theorem closeRoomBinding_only {roomId : RoomId}
    (reads : allowed (.redis (.hget (.binding roomId) "sfu_instance_id")))
    (removes : allowed (.redis (.del (.binding roomId))))
    (releases : ∀ instanceId, (decrementSfuRoomLoad instanceId).run.Only allowed) :
    (closeRoomBinding roomId).run.Only allowed := by
  refine (redisCommand_only reads).except_bind fun instanceId => ?_
  refine (redisCommand_only removes).except_bind fun deleted => ?_
  split
  · trivial
  · exact (releases _).except_bind fun _ => trivial

/-- Leaving a room removes the nickname and clears an empty room's members. -/
theorem leaveRoom_only {roomId : RoomId} {nickname : Nickname}
    (bound : allowed (.redis (.exists (.binding roomId))))
    (removes : allowed (.redis (.srem roomId nickname)))
    (counts : allowed (.redis (.scard roomId)))
    (clears : allowed (.redis (.delMembers roomId))) :
    (leaveRoom roomId nickname).run.Only allowed := by
  refine (redisCommand_only bound).except_bind fun found => ?_
  cases found with
  | false => trivial
  | true =>
      refine (redisCommand_only removes).except_bind fun removed => ?_
      split
      · trivial
      · refine (redisCommand_only counts).except_bind fun remaining => ?_
        split
        · exact (redisCommand_only clears).except_bind fun _ => trivial
        · trivial

/-- Reading a room's route reads its binding. -/
theorem getRoomRoute_only {roomId : RoomId}
    (reads : allowed (.redis (.hgetall (.binding roomId)))) :
    (getRoomRoute roomId).run.Only allowed :=
  (redisCommand_only reads).except_bind fun _ => trivial

namespace State

variable {state : State}

/-- Asking for Redis is a ping. -/
theorem isRedisAvailable_only (ping : allowed (.redis .ping)) : isRedisAvailable.Only allowed :=
  ⟨ping, fun reply => by cases reply <;> trivial⟩

/-- A payload for several targets is sent to each. -/
theorem sendToEach_only {payload : ServerMessage} {targets : List (Nickname × ConnectionId)}
    (sends : ∀ sender, allowed (.trySend sender payload)) :
    (sendToEach payload targets).Only allowed := by
  induction targets with
  | nil => trivial
  | cons target targets ih =>
      refine ⟨sends target.2, fun sent => ?_⟩
      change (sendToEach payload targets >>= fun stale => _).Only allowed
      exact Only.bind ih fun _ => trivial

/-- A broadcast lists its targets and sends to each. -/
theorem broadcastToRoom_only {roomId : RoomId} {exceptNickname : Option Nickname}
    {payload : ServerMessage}
    (targets : allowed (.peers state.node (.targets roomId exceptNickname)))
    (sends : ∀ sender, allowed (.trySend sender payload)) :
    (state.broadcastToRoom roomId exceptNickname payload).Only allowed :=
  ⟨targets, fun _ => sendToEach_only sends⟩

/-- The route read before a detach is that of the binding. -/
theorem routeBeforeDetach_only {roomId : RoomId} (ping : allowed (.redis .ping))
    (reads : allowed (.redis (.hgetall (.binding roomId)))) :
    (routeBeforeDetach roomId).Only allowed := by
  refine Only.bind (isRedisAvailable_only ping) fun available => ?_
  cases available with
  | false => trivial
  | true => exact Only.bind (getRoomRoute_only reads) fun _ => trivial

/-- Detaching a member is leaving the room, when Redis answers. -/
theorem detachMember_only {roomId : RoomId} {nickname : Nickname} (ping : allowed (.redis .ping))
    (bound : allowed (.redis (.exists (.binding roomId))))
    (removes : allowed (.redis (.srem roomId nickname)))
    (counts : allowed (.redis (.scard roomId)))
    (clears : allowed (.redis (.delMembers roomId))) :
    (detachMember roomId nickname).Only allowed := by
  refine Only.bind (isRedisAvailable_only ping) fun available => ?_
  cases available with
  | false => trivial
  | true => exact Only.bind (leaveRoom_only bound removes counts clears) fun _ => trivial

/-- Detaching from the SFU deletes the peer there. -/
theorem detachFromSfu_only {roomId : RoomId} {nickname : Nickname} {reason : String}
    {sfuAddr : Option Address}
    (deletes : ∀ sfuAddr, allowed (.deletePeer sfuAddr roomId nickname reason)) :
    (detachFromSfu roomId nickname reason sfuAddr).Only allowed := by
  cases sfuAddr with
  | none => trivial
  | some sfuAddr => exact ⟨deletes sfuAddr, fun _ => trivial⟩

/-- Clearing a session's room writes its field. -/
theorem clearRedisRoom_only {sessionId : SessionId}
    (clears : allowed (.redis (.hset (.session sessionId) "room_id" ""))) :
    (clearRedisRoom sessionId).Only allowed :=
  Only.bind (redisCommand_only clears) fun _ => trivial

/-- Closing a room tells its members, forgets them here and closes the binding. -/
theorem closeRoom_only {roomId : RoomId} {participants : List Nickname} {reason : String}
    (targets : allowed (.peers state.node (.targets roomId none)))
    (sends : ∀ sender, allowed (.trySend sender (.roomClosed roomId reason)))
    (removes : ∀ nickname, allowed (.peers state.node (.unregister roomId nickname)))
    (sessions : allowed (.sessions state.node (.clearRoom roomId)))
    (ping : allowed (.redis .ping)) (binding : (closeRoomBinding roomId).run.Only allowed)
    (members : allowed (.redis (.delMembers roomId)))
    (clears : ∀ sessionId, allowed (.redis (.hset (.session sessionId) "room_id" ""))) :
    (state.closeRoom roomId participants reason).Only allowed := by
  have unregister (names : List Nickname) : (names.forM (state.unregister roomId)).Only allowed :=
    Only.forM fun name _ => ⟨removes name, fun _ => trivial⟩
  refine Only.bind (broadcastToRoom_only targets sends) fun stale => ?_
  refine Only.bind (unregister participants) fun _ => Only.bind (unregister stale) fun _ => ?_
  refine Only.bind ⟨sessions, fun _ => trivial⟩ fun affected => ?_
  refine Only.bind (isRedisAvailable_only ping) fun available => ?_
  cases available with
  | false => trivial
  | true =>
      refine Only.bind binding fun _ => Only.bind (redisCommand_drop_only members) fun _ => ?_
      exact Only.forM fun sessionId _ => clearRedisRoom_only (clears sessionId)

/-- Closing an SFU's rooms closes those whose route names it. -/
theorem closeRoomsDueToSfuAddr_only {sfuAddr : Address} {reason : String}
    (lists : allowed (.peers state.node .snapshotRooms))
    (routes : ∀ roomId, allowed (.redis (.hgetall (.binding roomId))))
    (closes : ∀ roomId participants, (state.closeRoom roomId participants reason).Only allowed) :
    (state.closeRoomsDueToSfuAddr sfuAddr reason).Only allowed := by
  refine ⟨lists, fun rooms => Only.forM fun room _ => ?_⟩
  refine Only.bind (getRoomRoute_only (routes room.1)) fun route => ?_
  cases route with
  | error => trivial
  | ok route =>
      change (if route.sfuGrpcAddr = some sfuAddr then _ else _ : Call Unit).Only allowed
      split
      · exact closes room.1 room.2
      · trivial

end State

end Signaling

end Callifornia
