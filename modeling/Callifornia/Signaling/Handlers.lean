import Callifornia.Signaling.Footprint

/-! # The steps the WebSocket handlers consist of

The handlers share their reads, their announcements and the detaching of peers. What
is left, the writes that enter a room, record it or give up a session, is named handler
by handler.
-/

namespace Callifornia

open Concurrency Concurrency.Program Store

/-- The command only reads. -/
def Store.Command.Reads : Command → Prop
  | .ping | .exists _ | .hget .. | .hgetall _ | .sismember .. | .scard _ | .smembers _ | .zscore ..
  | .zrangeWithScores _ | .zrangeByScore .. | .get _ | .hgetInstance _ | .hgetallInstances
  | .scan .. => True
  | _ => False

namespace Signaling

/-- The change neither counts the connection nor stops counting it, and forgets no session. -/
def Steady (change : ConnectionContext → ConnectionContext) : Prop :=
  ∀ context, (change context).instanceLoadRegistered = context.instanceLoadRegistered ∧
    (context.sessionId.isSome = true → (change context).sessionId.isSome = true)

/-- The steps that every handler of a connection may take, but for those on the peers and
those that count the connection. -/
structure Converses (state : State) (connection : ConnectionId) (allowed : Op → Prop) :
    Prop where
  reads : ∀ command : Command, command.Reads → allowed (.redis command)
  clock : allowed .unixNow
  fuel : allowed .outOfFuel
  recalls : allowed (.getContext connection)
  remembers : ∀ change, Steady change → allowed (.setContext connection change)
  answers : ∀ message, allowed (.sendMessage connection message)
  sessions : ∀ command, allowed (.sessions state.node command)
  creates : ∀ sfuAddr roomId nickname, allowed (.createPeer sfuAddr roomId nickname state.node)
  deletes : ∀ sfuAddr roomId nickname reason, allowed (.deletePeer sfuAddr roomId nickname reason)
  removes : ∀ roomId nickname, allowed (.redis (.srem roomId nickname))
  clears : ∀ roomId, allowed (.redis (.delMembers roomId))
  unbinds : ∀ roomId, allowed (.redis (.del (.binding roomId)))
  scores : ∀ member score, allowed (.redis (.zadd .roomLoad member score))
  records : ∀ instanceId record, allowed (.redis (.hsetInstance instanceId record))

/-- The steps that stop counting a connection. -/
structure Counts (state : State) (connection : ConnectionId) (allowed : Op → Prop) : Prop where
  notes : ∀ change, allowed (.setContext connection change)
  lessens : ∀ score, allowed (.redis (.zadd .instanceLoad state.config.publicNodeId score))

/-- The critical section registers nobody and does not empty the registry. -/
def PeerRegistry.Command.RegistersNobody : PeerRegistry.Command → Prop
  | .register .. | .clear => False
  | _ => True

/-- The steps that every handler of a connection may take, but for entering a peer. -/
structure Detaches (state : State) (connection : ConnectionId) (allowed : Op → Prop) : Prop
    extends Converses state connection allowed where
  sends : ∀ sender message, allowed (.trySend sender message)
  peers : ∀ command : PeerRegistry.Command, command.RegistersNobody →
    allowed (.peers state.node command)

/-- The steps that every handler of a connection may take. -/
structure Serves (state : State) (connection : ConnectionId) (allowed : Op → Prop) : Prop
    extends Detaches state connection allowed where
  registers : ∀ roomId nickname entry,
    allowed (.peers state.node (.register roomId nickname entry))

variable {state : State} {connection : ConnectionId} {allowed : Op → Prop}
  {sessionId : SessionId} {roomId : RoomId} {nickname : Nickname}

/-- One step. -/
theorem issue_only {op : Op} (step : allowed op) : (issue op).Only allowed :=
  ⟨step, fun _ => trivial⟩

/-- The session of an ended connection is looked up at the node, else in the store. -/
theorem sessionForCleanup_only (looks : allowed (.sessions state.node (.get sessionId)))
    (reads : allowed (.redis (.hgetall (.session sessionId)))) :
    (sessionForCleanup state sessionId).Only allowed := by
  refine Only.bind (issue_only looks) fun known => ?_
  cases known with
  | some session => trivial
  | none =>
      exact Only.bind ((redisCommand_only reads).except_bind fun _ => trivial) fun _ => trivial

/-- A handler that needs Redis pings it. -/
theorem requireRedis_only (ping : allowed (.redis .ping)) : requireRedis.run.Only allowed := by
  refine (Only.lift (State.isRedisAvailable_only ping)).except_bind fun up => ?_
  cases up <;> trivial

/-- A session is read from its hash. -/
theorem sessionGet_only (reads : allowed (.redis (.hgetall (.session sessionId)))) :
    (sessionGet sessionId).run.Only allowed :=
  (redisCommand_only reads).except_bind fun _ => trivial

/-- A session is checked against the context of the connection and against the store. -/
theorem checkSession_only (recalls : allowed (.getContext connection))
    (ping : allowed (.redis .ping)) (reads : allowed (.redis (.hgetall (.session sessionId))))
    (remembers : ∀ change, Steady change → allowed (.setContext connection change))
    (sessions : ∀ command, allowed (.sessions state.node command)) :
    (checkSession state connection sessionId).run.Only allowed := by
  refine (Only.lift (issue_only recalls)).except_bind fun context => ?_
  change (if context.sessionId.any (· ≠ sessionId) = true then _ else _ :
    WsCall SessionState).run.Only allowed
  split
  · trivial
  · refine (requireRedis_only ping).except_bind fun _ => ?_
    refine (Only.adapt (sessionGet_only reads)).except_bind fun found => ?_
    cases found.filter (·.nickname ≠ "") with
    | none => trivial
    | some session =>
        refine (Only.lift (issue_only (remembers _ ?_))).except_bind fun _ => ?_
        · exact fun _ => ⟨rfl, fun _ => rfl⟩
        exact (Only.lift (issue_only (sessions _))).except_bind fun _ => trivial

/-- A join is admitted after the check of the session. -/
theorem admitJoin_only (recalls : allowed (.getContext connection))
    (checks : (checkSession state connection sessionId).run.Only allowed) :
    (admitJoin state connection sessionId roomId).run.Only allowed := by
  refine checks.except_bind fun session => ?_
  change (if session.roomId.isSome = true then _ else _ : WsCall SessionState).run.Only allowed
  split
  · trivial
  · refine (Only.lift (issue_only recalls)).except_bind fun context => ?_
    change (if context.allowedIntent ≠ some "join" ∨ context.allowedRoomId ≠ some roomId then _
      else _ : WsCall SessionState).run.Only allowed
    split <;> trivial

/-- A join reads the binding of its room. -/
theorem joinTarget_only (reads : allowed (.redis (.hgetall (.binding roomId)))) :
    (joinTarget state roomId).run.Only allowed := by
  refine (Only.adapt (getRoomRoute_only reads)).except_bind fun route => ?_
  change (if (!isLocalTarget state route) = true then _
    else if route.roomState ≠ "active" then _ else _ : WsCall Address).run.Only allowed
  split
  · trivial
  · split
    · trivial
    · split <;> trivial

/-- A token is used once: its id is set if it is not yet. -/
theorem admitToken_only {jwt : Jwt} {token : String} (clock : allowed .unixNow)
    (uses : ∀ jti expiry, allowed (.redis (.setNx (.jti jti) "1" expiry))) :
    (admitToken state jwt token).run.Only allowed := by
  refine (Only.lift (issue_only clock)).except_bind fun now => ?_
  cases validateConnectorToken jwt token state.config.connectorTokenSecret
    state.config.publicNodeId now with
  | error => trivial
  | ok claims =>
      change (if claims.jti = "" then _ else _ : WsCall ConnectorClaims).run.Only allowed
      split
      · trivial
      · refine (Only.adapt (redisCommand_only (uses _ _))).except_bind fun consumed => ?_
        cases consumed <;> trivial

/-- A peer is taken out of the registry, then out of the members, then off its SFU; the room of
the last member is closed. -/
theorem detachPeer_only {reason : String} (ping : allowed (.redis .ping))
    (reads : allowed (.redis (.hgetall (.binding roomId))))
    (leaves : allowed (.peers state.node (.unregister roomId nickname)))
    (member : (State.detachMember roomId nickname).Only allowed)
    (deletes : ∀ sfuAddr, allowed (.deletePeer sfuAddr roomId nickname reason))
    (closes : (closeRoomBinding roomId).run.Only allowed) :
    (state.detachPeer roomId nickname reason).Only allowed := by
  refine Only.bind (State.routeBeforeDetach_only ping reads) fun route => ?_
  refine Only.bind (issue_only leaves) fun _ => Only.bind member fun roomEmpty => ?_
  refine Only.bind (State.detachFromSfu_only deletes) fun _ => ?_
  cases roomEmpty with
  | false => trivial
  | true => exact Only.bind closes fun _ => trivial

/-- Peers are detached until nobody's channel refuses, or the bound is used up. -/
theorem detachStalePeers_only {reason : String} (fuel : allowed .outOfFuel)
    (announces : ∀ nickname, (state.broadcastToRoom roomId (some nickname)
      (.participantLeft nickname)).Only allowed)
    (detaches : ∀ nickname, (state.detachPeer roomId nickname reason).Only allowed)
    (bound : ℕ) (staleNicknames : List Nickname) :
    (detachStalePeers state roomId reason bound staleNicknames).Only allowed := by
  induction bound generalizing staleNicknames with
  | zero =>
      unfold Signaling.detachStalePeers
      cases staleNicknames.getLast? with
      | none => trivial
      | some nickname => exact ⟨fuel, fun reply => reply.elim⟩
  | succ bound ih =>
      unfold Signaling.detachStalePeers
      cases staleNicknames.getLast? with
      | none => trivial
      | some nickname =>
          refine Only.bind (announces nickname) fun moreStale => ?_
          exact Only.bind (detaches nickname) fun _ => ih _

namespace Converses

variable (converses : Converses state connection allowed)

include converses

/-! ## Shared parts -/

/-- A command that only reads. -/
theorem read {ε : Type} {onFailure : RedisFailure → ε} (command : Command)
    (reads : command.Reads) : (redisCommand onFailure command).run.Only allowed :=
  redisCommand_only (converses.reads command reads)

/-- The ping of Redis is a read. -/
theorem requireRedis : requireRedis.run.Only allowed :=
  requireRedis_only (converses.reads _ trivial)

/-- A session is only read. -/
theorem sessionGet (sessionId : SessionId) : (sessionGet sessionId).run.Only allowed :=
  sessionGet_only (converses.reads _ trivial)

/-- A check of a session writes the context and the node's own table. -/
theorem checkSession (sessionId : SessionId) :
    (checkSession state connection sessionId).run.Only allowed :=
  checkSession_only converses.recalls (converses.reads _ trivial) (converses.reads _ trivial)
    converses.remembers converses.sessions

/-- A slot is released by writing the score that was read less one. -/
theorem decrementSfuRoomLoad (instanceId : InstanceId) :
    (decrementSfuRoomLoad instanceId).run.Only allowed :=
  decrementSfuRoomLoad_only (converses.reads _ trivial) (converses.scores _) converses.clock
    (converses.reads _ trivial) (converses.records _)

/-- A binding is removed together with its slot. -/
theorem closeRoomBinding (roomId : RoomId) : (closeRoomBinding roomId).run.Only allowed :=
  closeRoomBinding_only (converses.reads _ trivial)
    (converses.unbinds _) converses.decrementSfuRoomLoad

/-- An answer is one write to the socket. -/
theorem sendMessage (message : ServerMessage) :
    (sendMessage connection message).run.Only allowed := by
  refine (Only.lift (issue_only (converses.answers _))).except_bind fun sent => ?_
  cases sent <;> trivial

/-- A steady change of the context counts no connection. -/
theorem setContext {change : ConnectionContext → ConnectionContext} (steady : Steady change) :
    (setContext connection change).Only allowed :=
  ⟨converses.remembers change steady, fun _ => trivial⟩

/-- The room is written to the session's hash, then to the table and the context. -/
theorem recordRoom (sets : allowed (.redis (.hset (.session sessionId) "room_id" roomId))) :
    (recordRoom state connection sessionId roomId).run.Only allowed := by
  refine (Only.adapt (redisCommand_only sets)).except_bind fun _ => ?_
  refine (Only.lift (issue_only (converses.sessions _))).except_bind fun _ => ?_
  exact Only.lift (converses.setContext fun _ => ⟨rfl, id⟩)

/-- Undoing a join takes the member out again. -/
theorem undoJoin (roomId : RoomId) (nickname : Nickname) :
    (undoJoin roomId nickname).Only allowed :=
  Only.bind (redisCommand_drop_only (converses.removes _ _)) fun _ => trivial

/-- Undoing a create closes the binding again. -/
theorem undoBinding (roomId : RoomId) : (undoBinding roomId).Only allowed :=
  Only.bind (converses.closeRoomBinding _) fun _ => trivial

/-- A member is added after it was found to be none. -/
theorem joinRoom (adds : allowed (.redis (.sadd roomId nickname))) :
    (joinRoom roomId nickname).run.Only allowed := by
  refine (converses.read (.exists _) trivial).except_bind fun bound => ?_
  cases bound with
  | false => trivial
  | true =>
      refine (converses.read (.sismember _ _) trivial).except_bind fun alreadyTaken => ?_
      cases alreadyTaken with
      | true => trivial
      | false =>
          refine (redisCommand_only adds).except_bind fun _ => ?_
          exact (converses.read (.smembers _) trivial).except_bind fun _ => trivial

/-- A peer is created at the SFU for this node. -/
theorem ensurePeer (sfuAddr : Address) (roomId : RoomId) (nickname : Nickname) :
    (state.ensurePeer sfuAddr roomId nickname).Only allowed :=
  ⟨converses.creates _ _ _, fun _ => trivial⟩

/-! ## Join -/

/-- The admission of a join only reads the store. -/
theorem admitJoin (sessionId : SessionId) (roomId : RoomId) :
    (admitJoin state connection sessionId roomId).run.Only allowed :=
  admitJoin_only converses.recalls (converses.checkSession sessionId)

/-- The target of a join is read from the binding. -/
theorem joinTarget (roomId : RoomId) : (joinTarget state roomId).run.Only allowed :=
  joinTarget_only (converses.reads (.hgetall _) trivial)

/-- A participant enters by the member set and by a peer at the SFU. -/
theorem enterRoom {sfuAddr : Address} (adds : allowed (.redis (.sadd roomId nickname))) :
    (enterRoom state sfuAddr roomId nickname).run.Only allowed := by
  refine (Only.adapt (converses.joinRoom adds)).except_bind fun participants => ?_
  refine (Only.lift (converses.ensurePeer _ _ _)).except_bind fun created => ?_
  cases created with
  | ok => trivial
  | error error =>
      exact (Only.lift (converses.undoJoin _ _)).except_bind fun _ => trivial

/-! ## Create -/

/-- The admission of a create only reads the store. -/
theorem admitCreate (sessionId : SessionId) :
    (admitCreate state connection sessionId).run.Only allowed := by
  refine (converses.checkSession sessionId).except_bind fun session => ?_
  change (if session.roomId.isSome = true then _ else _ : WsCall SessionState).run.Only allowed
  split
  · trivial
  · refine (Only.lift (issue_only converses.recalls)).except_bind fun context => ?_
    change (if context.allowedIntent ≠ some "create" then _ else _ :
      WsCall SessionState).run.Only allowed
    split <;> trivial

/-- A room is opened by its first member. -/
theorem openRoom {sfuAddr : Address} (adds : allowed (.redis (.sadd roomId nickname))) :
    (openRoom state sfuAddr roomId nickname).run.Only allowed := by
  refine (Only.lift (converses.joinRoom adds)).except_bind fun joined => ?_
  cases joined with
  | error error => exact (Only.lift (converses.undoBinding _)).except_bind fun _ => trivial
  | ok participants =>
      refine (Only.lift (converses.ensurePeer _ _ _)).except_bind fun created => ?_
      cases created with
      | ok => trivial
      | error error =>
          refine (Only.lift (converses.undoJoin _ _)).except_bind fun _ => ?_
          exact (Only.lift (converses.undoBinding _)).except_bind fun _ => trivial

/-- The script is called for this node with the time of the call. -/
theorem assignRoom (assigns : ∀ now, allowed (.redis (.assignRoomToSfu roomId
      state.config.signalingPublicHost (toString state.config.signalingPublicPort.toNat)
      state.config.publicNodeId now 30))) :
    (assignRoomToLeastLoadedSfu roomId state.config.publicNodeId state.config.signalingPublicHost
      state.config.signalingPublicPort).run.Only allowed := by
  refine (Only.lift (issue_only converses.clock)).except_bind fun now => ?_
  exact (redisCommand_only (assigns now)).except_bind fun _ => trivial

/-! ## Attach, logout, leave and the media messages -/

/-- The admission of a token uses its id up. -/
theorem admitToken {jwt : Jwt} {token : String}
    (uses : ∀ jti expiry, allowed (.redis (.setNx (.jti jti) "1" expiry))) :
    (admitToken state jwt token).run.Only allowed :=
  admitToken_only converses.clock uses

/-- The part of an attach that follows the check of the session. -/
theorem attachSession {session : SessionState}
    (owns : allowed (.redis (.hset (.session sessionId) "signaling_owner_id"
      state.config.publicNodeId)))
    (counts : allowed (.redis (.zincr .instanceLoad state.config.publicNodeId 1)))
    (notes : ∀ change, allowed (.setContext connection change))
    (first second : ConnectionContext → ConnectionContext) (message : ServerMessage) :
    (do
      redis (sessionSetOwner sessionId state.config.publicNodeId)
      Signaling.setContext connection first
      redis (incrementInstanceLoad state.config.publicNodeId)
      Signaling.setContext connection second
      state.upsertSession sessionId session
      Signaling.sendMessage connection message : WsCall Unit).run.Only allowed := by
  refine (Only.adapt (redisCommand_only owns)).except_bind fun _ => ?_
  refine (Only.lift (issue_only (notes _))).except_bind fun _ => ?_
  refine (Only.adapt (redisCommand_only counts)).except_bind fun _ => ?_
  refine (Only.lift (issue_only (notes _))).except_bind fun _ => ?_
  refine (Only.lift (issue_only (converses.sessions _))).except_bind fun _ => ?_
  exact converses.sendMessage _

/-- An attach uses the token, records the owner of the session and counts the connection. -/
theorem handleAttach {jwt : Jwt} {token : String}
    (uses : ∀ jti expiry, allowed (.redis (.setNx (.jti jti) "1" expiry)))
    (owns : ∀ sessionId, allowed (.redis (.hset (.session sessionId) "signaling_owner_id"
      state.config.publicNodeId)))
    (counts : allowed (.redis (.zincr .instanceLoad state.config.publicNodeId 1)))
    (notes : ∀ change, allowed (.setContext connection change)) :
    (handleAttach state connection jwt token).run.Only allowed := by
  refine (Only.lift (issue_only converses.recalls)).except_bind fun context => ?_
  change (if context.sessionId.isSome = true then _ else _ : WsCall Unit).run.Only allowed
  split
  · trivial
  · refine converses.requireRedis.except_bind fun _ => ?_
    refine (converses.admitToken uses).except_bind fun claims => ?_
    refine (Only.adapt (converses.sessionGet _)).except_bind fun found => ?_
    split
    · trivial
    · exact converses.attachSession (owns _) counts notes _ _ _

/-- The count of the node's connections is lowered. -/
theorem decrementInstanceLoad (counts : Counts state connection allowed) :
    (decrementInstanceLoad state.config.publicNodeId).run.Only allowed :=
  (converses.read (.zscore _ _) trivial).except_bind fun _ => redisCommand_only (counts.lessens _)

/-- A connection that was counted is no longer. -/
theorem uncountConnection (counts : Counts state connection allowed) {context : ConnectionContext} :
    (uncountConnection state connection context).run.Only allowed := by
  unfold Signaling.uncountConnection
  split
  · refine (Only.adapt (converses.decrementInstanceLoad counts)).except_bind fun _ => ?_
    exact Only.lift (issue_only (counts.notes _))
  · trivial

/-- A logout releases the nickname and deletes the session of the store. -/
theorem logoutRedis (counts : Counts state connection allowed)
    (releases : allowed (.redis (.compareAndDel (.nick nickname) sessionId)))
    (drops : allowed (.redis (.del (.session sessionId)))) :
    (logoutRedis state connection sessionId nickname).run.Only allowed := by
  refine (Only.lift (State.isRedisAvailable_only (converses.reads _ trivial))).except_bind
    fun up => ?_
  cases up with
  | false => trivial
  | true =>
      refine (Only.lift (issue_only converses.recalls)).except_bind fun context => ?_
      refine (converses.uncountConnection counts).except_bind fun _ => ?_
      refine (Only.adapt (redisCommand_drop_only releases)).except_bind fun _ => ?_
      exact Only.adapt (redisCommand_drop_only drops)

/-- The SFU of a peer's media is read from the binding. -/
theorem mediaTarget (sessionId : SessionId) :
    (mediaTarget state connection sessionId).run.Only allowed := by
  refine (converses.checkSession sessionId).except_bind fun session => ?_
  cases session.roomId with
  | none => trivial
  | some roomId =>
      refine (Only.adapt (getRoomRoute_only (converses.reads (.hgetall _) trivial))).except_bind
        fun route => ?_
      cases route.sfuGrpcAddr <;> trivial

/-- An SDP is handed to the SFU. -/
theorem handleSdp {sdp sdpType : String}
    (asks : ∀ sfuAddr roomId nickname, allowed (.handleSdp sfuAddr roomId nickname sdp sdpType)) :
    (handleSdp state connection sessionId sdp sdpType).run.Only allowed := by
  refine (converses.mediaTarget sessionId).except_bind fun target => ?_
  refine (Only.lift (issue_only (asks _ _ _))).except_bind fun response => ?_
  cases response with
  | error error => trivial
  | ok response =>
      dsimp only
      cases State.ensureSuccess ⟨response.success, response.errorMessage⟩ "SFU rejected SDP" with
      | error error => trivial
      | ok => exact converses.sendMessage _

/-- A candidate is handed to the SFU. -/
theorem handleCandidate {candidate sdpMid : String}
    (asks : ∀ sfuAddr roomId nickname,
      allowed (.addIceCandidate sfuAddr roomId nickname candidate sdpMid)) :
    (handleCandidate state connection sessionId candidate sdpMid).run.Only allowed := by
  refine (converses.mediaTarget sessionId).except_bind fun target => ?_
  refine (Only.lift (issue_only (asks _ _ _))).except_bind fun response => ?_
  cases response with
  | error error => trivial
  | ok response =>
      dsimp only
      cases State.ensureSuccess response "SFU rejected ICE candidate" <;> trivial

/-! ## Locks, errors and the end of a connection -/

/-- A handler under the session's lock draws an owner, locks, runs and unlocks. -/
theorem withSessionLock {handler : WsCall Unit} (draws : allowed .newUuid)
    (locks : ∀ owner expiry, allowed (.redis (.setNx (.sessionLock sessionId) owner expiry)))
    (unlocks : ∀ owner, allowed (.redis (.compareAndDel (.sessionLock sessionId) owner)))
    (handles : handler.run.Only allowed) :
    (withSessionLock state sessionId handler).run.Only allowed := by
  refine converses.requireRedis.except_bind fun _ => ?_
  refine (Only.lift (issue_only draws)).except_bind fun lockOwner => ?_
  refine (Only.adapt (redisCommand_only (locks _ _))).except_bind fun acquired => ?_
  cases acquired with
  | false => trivial
  | true =>
      refine Only.bind handles fun result => ?_
      exact Only.bind (redisCommand_drop_only (unlocks _)) fun _ => trivial

end Converses

namespace Detaches

variable (detaches : Detaches state connection allowed)

include detaches

/-! ## Handlers that announce and detach peers -/

/-- An announcement tries the channels of the room's peers. -/
theorem broadcastToRoom (roomId : RoomId) (exceptNickname : Option Nickname)
    (payload : ServerMessage) :
    (state.broadcastToRoom roomId exceptNickname payload).Only allowed :=
  State.broadcastToRoom_only (detaches.peers _ trivial) fun sender => detaches.sends sender payload

/-- A detached peer is gone from the registry, the SFU and the members. -/
theorem detachPeer (roomId : RoomId) (nickname : Nickname) (reason : String) :
    (state.detachPeer roomId nickname reason).Only allowed := by
  have member := State.detachMember_only (detaches.reads .ping trivial)
    (detaches.reads (.exists (.binding roomId)) trivial) (detaches.removes roomId nickname)
    (detaches.reads (.scard roomId) trivial) (detaches.clears roomId)
  exact detachPeer_only (detaches.reads _ trivial) (detaches.reads _ trivial)
    (detaches.peers _ trivial) member (fun _ => detaches.deletes _ _ _ _)
    (detaches.closeRoomBinding roomId)

/-- Each stale peer is announced and detached. -/
theorem detachStalePeers (roomId : RoomId) (reason : String) (bound : ℕ)
    (staleNicknames : List Nickname) :
    (detachStalePeers state roomId reason bound staleNicknames).Only allowed :=
  detachStalePeers_only detaches.fuel (fun _ => detaches.broadcastToRoom _ _ _)
    (fun _ => detaches.detachPeer _ _ _) bound staleNicknames

/-- An announcement may make more peers stale. -/
theorem announce (roomId : RoomId) (nickname : Nickname) (message : ServerMessage) :
    (announce state roomId nickname message).Only allowed :=
  Only.bind (detaches.broadcastToRoom _ _ _) fun _ => detaches.detachStalePeers _ _ _ _

/-- Whoever leaves is detached first and announced then. -/
theorem leaveRoomAndNotify (roomId : RoomId) (nickname : Nickname) (reason : String) :
    (leaveRoomAndNotify state roomId nickname reason).Only allowed :=
  Only.bind (detaches.detachPeer _ _ _) fun _ => detaches.announce _ _ _

/-- The room of the session is cleared in its hash after the leave. -/
theorem leaveRoomOf (participants : Option (List String)) {reason : String}
    (clears : allowed (.redis (.hset (.session sessionId) "room_id" ""))) :
    (leaveRoomOf state connection sessionId roomId nickname participants reason).run.Only
      allowed := by
  refine detaches.requireRedis.except_bind fun _ => ?_
  refine (Only.lift (detaches.leaveRoomAndNotify _ _ _)).except_bind fun _ => ?_
  refine (Only.adapt (redisCommand_only clears)).except_bind fun _ => ?_
  refine (Only.lift (issue_only (detaches.sessions _))).except_bind fun _ => ?_
  exact Only.lift (detaches.setContext fun _ => ⟨rfl, id⟩)

/-- A logout leaves the room before it gives up the nickname and the session. -/
theorem handleLogout {participants : Option (List String)}
    (counts : Counts state connection allowed)
    (clears : allowed (.redis (.hset (.session sessionId) "room_id" "")))
    (releases : ∀ nickname, allowed (.redis (.compareAndDel (.nick nickname) sessionId)))
    (drops : allowed (.redis (.del (.session sessionId)))) :
    (handleLogout state connection sessionId participants).run.Only allowed := by
  refine (detaches.checkSession sessionId).except_bind fun session => ?_
  have leaves (roomId : Option RoomId) : (leaveOnLogout state connection sessionId
      session.nickname participants roomId).run.Only allowed := by
    cases roomId with
    | none => trivial
    | some roomId => exact detaches.leaveRoomOf participants clears
  refine (leaves _).except_bind fun _ => ?_
  refine (detaches.logoutRedis counts (releases _) drops).except_bind fun _ => ?_
  refine (Only.lift (issue_only (detaches.sessions _))).except_bind fun _ => ?_
  refine (Only.lift (issue_only (counts.notes _))).except_bind fun _ => ?_
  exact detaches.sendMessage _

/-- A leave handles the room that the session is in. -/
theorem handleLeave {participants : Option (List String)}
    (clears : allowed (.redis (.hset (.session sessionId) "room_id" ""))) :
    (handleLeave state connection sessionId roomId participants).run.Only allowed := by
  refine (detaches.checkSession sessionId).except_bind fun session => ?_
  cases session.roomId with
  | none => trivial
  | some currentRoom =>
      change (if currentRoom ≠ roomId then _ else _ : WsCall Unit).run.Only allowed
      split
      · trivial
      · refine (detaches.leaveRoomOf participants clears).except_bind fun _ => ?_
        exact detaches.sendMessage _

/-- A connection that ends in a room leaves it. -/
theorem leaveOnDisconnect (clears : allowed (.redis (.hset (.session sessionId) "room_id" "")))
    (left : Option RoomId) : (leaveOnDisconnect state sessionId nickname left).Only allowed := by
  cases left with
  | none => trivial
  | some roomId =>
      refine Only.bind (detaches.leaveRoomAndNotify _ _ _) fun _ => ?_
      refine Only.bind (redisCommand_only clears) fun _ => ?_
      exact issue_only (detaches.sessions _)

/-- What is cleaned up for a session is its room, its count and its entry at the node. -/
theorem cleanupSession {context : ConnectionContext} (counts : Counts state connection allowed)
    (clears : allowed (.redis (.hset (.session sessionId) "room_id" ""))) :
    (cleanupSession state context sessionId).Only allowed := by
  refine Only.bind (State.isRedisAvailable_only (detaches.reads _ trivial)) fun up => ?_
  have remove : (state.removeSession sessionId).Only allowed := issue_only (detaches.sessions _)
  have find : (sessionForCleanup state sessionId).Only allowed :=
    sessionForCleanup_only (detaches.sessions _) (detaches.reads _ trivial)
  have uncount : (uncountOnDisconnect state context).Only allowed := by
    unfold Signaling.uncountOnDisconnect
    split
    · exact Only.bind (detaches.decrementInstanceLoad counts) fun _ => trivial
    · trivial
  cases up with
  | false => exact remove
  | true =>
      refine Only.bind find fun found => ?_
      cases found with
      | none => exact remove
      | some session =>
          refine Only.bind (detaches.leaveOnDisconnect clears _) fun _ => ?_
          exact Only.bind uncount fun _ => remove

/-- A connection that ends cleans up the session of its context. -/
theorem cleanupConnection (counts : Counts state connection allowed)
    (clears : ∀ sessionId, allowed (.redis (.hset (.session sessionId) "room_id" ""))) :
    (cleanupConnection state connection).Only allowed := by
  refine Only.bind (detaches.setContext fun _ => ⟨rfl, id⟩) fun _ => ?_
  refine Only.bind (issue_only detaches.recalls) fun context => ?_
  cases context.sessionId with
  | none => trivial
  | some sessionId => exact detaches.cleanupSession counts (clears _)

end Detaches

namespace Serves

variable (serves : Serves state connection allowed)

include serves

/-! ## Handlers that enter peers -/

/-- A peer is entered in the node's registry. -/
theorem register (entry : PeerEntry) : (state.register roomId nickname entry).Only allowed :=
  issue_only (serves.registers _ _ _)

/-- A join adds a member, creates a peer, records the room and registers the peer. -/
theorem handleJoinLocked (adds : ∀ nickname, allowed (.redis (.sadd roomId nickname)))
    (sets : allowed (.redis (.hset (.session sessionId) "room_id" roomId))) :
    (handleJoinLocked state connection sessionId roomId).run.Only allowed := by
  refine (serves.admitJoin sessionId roomId).except_bind fun session => ?_
  refine (serves.joinTarget roomId).except_bind fun sfuAddr => ?_
  refine (serves.enterRoom (adds session.nickname)).except_bind fun participants => ?_
  refine (serves.recordRoom sets).except_bind fun _ => ?_
  refine (serves.sendMessage _).except_bind fun _ => ?_
  refine (Only.lift (serves.register _)).except_bind fun _ => ?_
  exact Only.lift (serves.announce _ _ _)

end Serves

/-- A create after its room has been bound. -/
def enterCreated (state : State) (connection : ConnectionId) (sessionId : SessionId)
    (nickname : Nickname) (roomId : RoomId) (assignment : SfuAssignment) : WsCall Unit := do
  openRoom state assignment.sfuGrpcAddr roomId nickname
  recordRoom state connection sessionId roomId
  Signaling.sendMessage connection (.created roomId nickname)
  state.register roomId nickname ⟨connection, some assignment.sfuGrpcAddr⟩

/-- A create draws the id of a room, binds the room and enters it. -/
theorem handleCreateLocked_eq : handleCreateLocked state connection sessionId = (do
    let session ← admitCreate state connection sessionId
    let roomId ← issue .newUuid
    let assignment ← redis (assignRoomToLeastLoadedSfu roomId state.config.publicNodeId
      state.config.signalingPublicHost state.config.signalingPublicPort)
    enterCreated state connection sessionId session.nickname roomId assignment) := rfl

namespace Serves

variable (serves : Serves state connection allowed)

include serves

/-- The creator enters the room that was bound. -/
theorem enterCreated {assignment : SfuAssignment}
    (adds : allowed (.redis (.sadd roomId nickname)))
    (sets : allowed (.redis (.hset (.session sessionId) "room_id" roomId))) :
    (enterCreated state connection sessionId nickname roomId assignment).run.Only allowed := by
  refine (serves.openRoom adds).except_bind fun _ => ?_
  refine (serves.recordRoom sets).except_bind fun _ => ?_
  refine (serves.sendMessage _).except_bind fun _ => ?_
  exact Only.lift (serves.register _)

/-- A create binds a fresh room before its creator enters it. -/
theorem handleCreateLocked (draws : allowed .newUuid)
    (assigns : ∀ roomId now, allowed (.redis (.assignRoomToSfu roomId
      state.config.signalingPublicHost (toString state.config.signalingPublicPort.toNat)
      state.config.publicNodeId now 30)))
    (adds : ∀ roomId nickname, allowed (.redis (.sadd roomId nickname)))
    (sets : ∀ roomId, allowed (.redis (.hset (.session sessionId) "room_id" roomId))) :
    (handleCreateLocked state connection sessionId).run.Only allowed := by
  refine (serves.admitCreate sessionId).except_bind fun session => ?_
  refine (Only.lift (issue_only draws)).except_bind fun roomId => ?_
  refine (Only.adapt (serves.assignRoom (assigns roomId))).except_bind fun assignment => ?_
  exact serves.enterCreated (adds roomId _) (sets roomId)

end Serves

end Signaling

end Callifornia
