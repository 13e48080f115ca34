import Callifornia.Signaling.Auth

/-! # The WebSocket handlers of a signaling node

One connection's task handles its client's messages one at a time and cleans up
when the connection ends. The handlers are programs over the node's operations;
an error ends a handler, as `?` does, and is reported to the client.
-/

namespace Callifornia.Signaling

open Concurrency FiniteMap Store

inductive WsHandlerError
  | alreadyAuthorized
  | unauthorized
  | sessionConflict
  | notInRoom
  | leaveRoomMismatch
  | alreadyInRoom
  | roomNotFound
  | nicknameTaken
  | participantNotInRoom
  | redisError
  | invalidRoomAssignment
  | sfuCapacityExhausted
  | sfuUnavailable
  | sfuRejected
  | writeFailed
  deriving DecidableEq

def mapError : WsHandlerError → ServerErrorCode × String
  | .writeFailed => (.writeFailed, "Failed to send message")
  | .alreadyAuthorized => (.alreadyAuthorized, "Connection is already authorized")
  | .unauthorized => (.unauthorized, "Unauthorized")
  | .sessionConflict => (.sessionConflict, "Invalid or conflicting session")
  | .leaveRoomMismatch => (.leaveRoomMismatch, "Leave room does not match active room")
  | .alreadyInRoom => (.alreadyInRoom, "Connection already belongs to a room")
  | .roomNotFound => (.roomNotFound, "Room not found")
  | .nicknameTaken => (.nicknameTaken, "Nickname already taken")
  | .participantNotInRoom => (.notInRoom, "Participant is not in room")
  | .invalidRoomAssignment => (.invalidRoomAssignment, "Invalid room assignment")
  | .sfuCapacityExhausted => (.sfuCapacityExhausted, "No ready SFU capacity is available")
  | .redisError => (.storageUnavailable, "Storage operation failed")
  | .notInRoom => (.notInRoom, "Connection is not joined to this room")
  | .sfuUnavailable => (.sfuUnavailable, "SFU is unavailable")
  | .sfuRejected => (.sfuRejected, "SFU rejected signaling request")

def mapRedisError : RedisRoomError → WsHandlerError
  | .roomNotFound => .roomNotFound
  | .nicknameTaken => .nicknameTaken
  | .participantNotInRoom => .participantNotInRoom
  | .noSfuCapacity => .sfuCapacityExhausted
  | .roomAlreadyExists => .invalidRoomAssignment
  | .invalidRoomTarget => .invalidRoomAssignment
  | .timeout | .redis => .redisError

def mapSfuError : SfuClientError → WsHandlerError
  | .transport | .connect | .timeout => .sfuUnavailable
  | .rejected _ => .sfuRejected

/-- A handler, or a part of one. -/
abbrev WsCall := ExceptT WsHandlerError Call

/-- A Redis operation whose error is the handler's. -/
def redis {α : Type} (call : RedisCall α) : WsCall α := ExceptT.adapt mapRedisError call

/-- Write to the client's socket. -/
def sendMessage (connection : ConnectionId) (message : ServerMessage) : WsCall Unit := do
  if ← issue (.sendMessage connection message) then return ()
  else throw .writeFailed

def getContext (connection : ConnectionId) : Call ConnectionContext :=
  issue (.getContext connection)

def setContext (connection : ConnectionId) (change : ConnectionContext → ConnectionContext) :
    Call Unit :=
  issue (.setContext connection change)

/-- Fail unless Redis answers a `PING`. -/
def requireRedis : WsCall Unit := do
  if ← State.isRedisAvailable then return ()
  else throw .redisError

variable (state : State) (connection : ConnectionId)

/-! ## Parts the handlers share -/

def checkSession (sessionId : SessionId) : WsCall SessionState := do
  let context ← getContext connection
  if context.sessionId.any (· ≠ sessionId) then throw .sessionConflict
  else do
    requireRedis
    let found ← redis (sessionGet sessionId)
    match found.filter (·.nickname ≠ "") with
    | none => throw .sessionConflict
    | some session => do
        setContext connection
          ({ · with sessionId := some sessionId, cachedSession := some session })
        state.upsertSession sessionId session
        return session

/-- The room is owned by this node. -/
def isLocalTarget (route : RoomRoute) : Bool :=
  route.ownerHost = state.config.signalingPublicHost ∧
    route.ownerPort = state.config.signalingPublicPort

/-- Announce and detach the peers whose channel refused a message, and those whose
channel refuses the announcement. -/
def detachStalePeers (roomId : RoomId) (reason : String) : ℕ → List Nickname → Call Unit
  | bound, staleNicknames =>
      match staleNicknames.getLast?, bound with
      | none, _ => return ()
      | some _, 0 => do nomatch ← issue .outOfFuel
      | some nickname, bound + 1 => do
          let moreStale ← state.broadcastToRoom roomId (some nickname) (.participantLeft nickname)
          state.detachPeer roomId nickname reason
          detachStalePeers roomId reason bound (staleNicknames.dropLast ++ moreStale)

/-- Tell the others in a room that a peer joined or left. -/
def announce (roomId : RoomId) (nickname : Nickname) (message : ServerMessage) : Call Unit := do
  let stale ← state.broadcastToRoom roomId (some nickname) message
  detachStalePeers state roomId "stale_sender" state.config.loopBound stale

def leaveRoomAndNotify (roomId : RoomId) (nickname : Nickname) (reason : String) :
    Call Unit := do
  state.detachPeer roomId nickname reason
  announce state roomId nickname (.participantLeft nickname)

/-- The rest of a leave request: detach, announce, and take the session out. -/
def leaveRoomOf (sessionId : SessionId) (roomId : RoomId) (nickname : Nickname)
    (_participants : Option (List String)) (reason : String) : WsCall Unit := do
  requireRedis
  leaveRoomAndNotify state roomId nickname reason
  redis (sessionSetRoom sessionId none)
  state.setSessionRoom sessionId none
  setContext connection fun context =>
    { context with cachedSession := context.cachedSession.map ({ · with roomId := none }) }

/-- Record the room a session has entered. -/
def recordRoom (sessionId : SessionId) (roomId : RoomId) : WsCall Unit := do
  redis (sessionSetRoom sessionId (some roomId))
  state.setSessionRoom sessionId (some roomId)
  setContext connection fun context =>
    { context with cachedSession := context.cachedSession.map ({ · with roomId := some roomId }) }

/-- Remove a member again after the SFU refused its peer. -/
def undoJoin (roomId : RoomId) (nickname : Nickname) : Call Unit := do
  let _ ← (sremMember roomId nickname).run

/-- Close a binding again after its room could not be entered. -/
def undoBinding (roomId : RoomId) : Call Unit := do
  let _ ← (closeRoomBinding roomId).run

/-! ## Join -/

/-- The session may join this room now. -/
def admitJoin (sessionId : SessionId) (roomId : RoomId) : WsCall SessionState := do
  let session ← checkSession state connection sessionId
  if session.roomId.isSome then throw .alreadyInRoom
  else do
    let context ← getContext connection
    if context.allowedIntent ≠ some "join" ∨ context.allowedRoomId ≠ some roomId then
      throw .unauthorized
    else return session

/-- The SFU of a room this node may let sessions into. -/
def joinTarget (roomId : RoomId) : WsCall Address := do
  let route ← redis (getRoomRoute roomId)
  if !isLocalTarget state route then throw .invalidRoomAssignment
  else if route.roomState ≠ "active" then throw .invalidRoomAssignment
  else
    match route.sfuGrpcAddr with
    | none => throw .sfuUnavailable
    | some sfuAddr => return sfuAddr

/-- Become a member of the room and a peer of its SFU. -/
def enterRoom (sfuAddr : Address) (roomId : RoomId) (nickname : Nickname) :
    WsCall (List Nickname) := do
  let participants ← redis (joinRoom roomId nickname)
  match ← state.ensurePeer sfuAddr roomId nickname with
  | .ok () => return participants
  | .error error => do
      undoJoin roomId nickname
      throw (mapSfuError error)

def handleJoinLocked (sessionId : SessionId) (roomId : RoomId) : WsCall Unit := do
  let session ← admitJoin state connection sessionId roomId
  let sfuAddr ← joinTarget state roomId
  let participants ← enterRoom state sfuAddr roomId session.nickname
  recordRoom state connection sessionId roomId
  sendMessage connection (.joined roomId session.nickname participants)
  state.register roomId session.nickname ⟨connection, some sfuAddr⟩
  announce state roomId session.nickname (.participantJoined session.nickname)

/-! ## Create -/

/-- The session may create a room now. -/
def admitCreate (sessionId : SessionId) : WsCall SessionState := do
  let session ← checkSession state connection sessionId
  if session.roomId.isSome then throw .alreadyInRoom
  else do
    let context ← getContext connection
    if context.allowedIntent ≠ some "create" then throw .unauthorized
    else return session

/-- Become the first member of a new room and a peer of its SFU. -/
def openRoom (sfuAddr : Address) (roomId : RoomId) (nickname : Nickname) : WsCall Unit := do
  match ← (joinRoom roomId nickname).run with
  | .error error => do
      undoBinding roomId
      throw (mapRedisError error)
  | .ok _ =>
      match ← state.ensurePeer sfuAddr roomId nickname with
      | .ok () => return ()
      | .error error => do
          undoJoin roomId nickname
          undoBinding roomId
          throw (mapSfuError error)

def handleCreateLocked (sessionId : SessionId) : WsCall Unit := do
  let session ← admitCreate state connection sessionId
  let roomId ← issue .newUuid
  let assignment ← redis (assignRoomToLeastLoadedSfu roomId state.config.publicNodeId
    state.config.signalingPublicHost state.config.signalingPublicPort)
  openRoom state assignment.sfuGrpcAddr roomId session.nickname
  recordRoom state connection sessionId roomId
  sendMessage connection (.created roomId session.nickname)
  state.register roomId session.nickname ⟨connection, some assignment.sfuGrpcAddr⟩

/-! ## The client's messages -/

/-- Check a token and use it up. -/
def admitToken (jwt : Jwt) (token : String) : WsCall ConnectorClaims := do
  let now ← unixNow
  match validateConnectorToken jwt token state.config.connectorTokenSecret
      state.config.publicNodeId now with
  | .error _ => throw .unauthorized
  | .ok claims =>
      if claims.jti = "" then return claims
      else do
        let consumed ← redis (consumeJti claims.jti (max (claims.exp - claims.iat) 60 + 30))
        if consumed then return claims
        else throw .unauthorized

def handleAttach (jwt : Jwt) (token : String) : WsCall Unit := do
  let context ← getContext connection
  if context.sessionId.isSome then throw .alreadyAuthorized
  else do
    requireRedis
    let claims ← admitToken state jwt token
    let found ← redis (sessionGet claims.sessionId)
    match found.filter (·.nickname = claims.nickname) with
    | none => throw .unauthorized
    | some session => do
        redis (sessionSetOwner claims.sessionId state.config.publicNodeId)
        setContext connection fun context =>
          { context with
            sessionId := some claims.sessionId
            cachedSession := some session
            allowedIntent := some claims.intent
            allowedRoomId := claims.roomId }
        redis (incrementInstanceLoad state.config.publicNodeId)
        setContext connection fun context =>
          { context with
            instanceLoadRegistered := true
            leaseRenewer := some claims.sessionId }
        state.upsertSession claims.sessionId session
        sendMessage connection (.attached session.nickname claims.sessionId)

/-- Stop counting the connection in the node's load. -/
def uncountConnection (context : ConnectionContext) : WsCall Unit := do
  if context.instanceLoadRegistered then do
    redis (decrementInstanceLoad state.config.publicNodeId)
    setContext connection ({ · with instanceLoadRegistered := false })
  else return ()

/-- Give up the node's load count, the nickname and the session in Redis. -/
def logoutRedis (sessionId : SessionId) (nickname : Nickname) : WsCall Unit := do
  if ← State.isRedisAvailable then do
    let context ← getContext connection
    uncountConnection state connection context
    redis (releaseNickLease nickname sessionId)
    redis (sessionDelete sessionId)
  else return ()

/-- Take the session that logs out from its room. -/
def leaveOnLogout (sessionId : SessionId) (nickname : Nickname)
    (participants : Option (List String)) : Option RoomId → WsCall Unit
  | some roomId =>
      leaveRoomOf state connection sessionId roomId nickname participants "user_logout"
  | none => return ()

def handleLogout (sessionId : SessionId) (participants : Option (List String)) :
    WsCall Unit := do
  let session ← checkSession state connection sessionId
  leaveOnLogout state connection sessionId session.nickname participants session.roomId
  logoutRedis state connection sessionId session.nickname
  state.removeSession sessionId
  setContext connection
    ({ · with leaseRenewer := none, sessionId := none, cachedSession := none })
  sendMessage connection (.loggedOut session.nickname)

def handleLeave (sessionId : SessionId) (roomId : RoomId)
    (participants : Option (List String)) : WsCall Unit := do
  let session ← checkSession state connection sessionId
  match session.roomId with
  | none => throw .notInRoom
  | some currentRoom =>
      if currentRoom ≠ roomId then throw .leaveRoomMismatch
      else do
        leaveRoomOf state connection sessionId roomId session.nickname participants "user_left"
        sendMessage connection (.left roomId)

/-- The room of a session and the address of its SFU. -/
def mediaTarget (sessionId : SessionId) : WsCall (SessionState × RoomId × Address) := do
  let session ← checkSession state connection sessionId
  match session.roomId with
  | none => throw .notInRoom
  | some roomId => do
      let route ← redis (getRoomRoute roomId)
      match route.sfuGrpcAddr with
      | none => throw .sfuUnavailable
      | some sfuAddr => return (session, roomId, sfuAddr)

def handleSdp (sessionId : SessionId) (sdp sdpType : String) : WsCall Unit := do
  let (session, roomId, sfuAddr) ← mediaTarget state connection sessionId
  match ← issue (.handleSdp sfuAddr roomId session.nickname sdp sdpType) with
  | .error error => throw (mapSfuError error)
  | .ok response =>
      match State.ensureSuccess ⟨response.success, response.errorMessage⟩ "SFU rejected SDP" with
      | .error error => throw (mapSfuError error)
      | .ok () => sendMessage connection (.sdp "sfu" response.sdp response.sdpType)

def handleCandidate (sessionId : SessionId) (candidate sdpMid : String) : WsCall Unit := do
  let (session, roomId, sfuAddr) ← mediaTarget state connection sessionId
  match ← issue
      (.addIceCandidate sfuAddr roomId session.nickname candidate sdpMid) with
  | .error error => throw (mapSfuError error)
  | .ok response =>
      match State.ensureSuccess response "SFU rejected ICE candidate" with
      | .error error => throw (mapSfuError error)
      | .ok () => return ()

/-- Run a handler while holding the session's lock. -/
def withSessionLock (sessionId : SessionId) (handler : WsCall Unit) : WsCall Unit := do
  requireRedis
  let lockOwner ← issue .newUuid
  let acquired ← redis (acquireSessionLock sessionId lockOwner state.config.sessionLockTtlMs)
  if !acquired then throw .sessionConflict
  else ExceptT.mk do
    let result ← handler.run
    let _ ← (releaseSessionLock sessionId lockOwner).run
    return result

def handleClientMessage (jwt : Jwt) : ClientMessage → WsCall Unit
  | .attach token => handleAttach state connection jwt token
  | .logout sessionId participants => handleLogout state connection sessionId participants
  | .create sessionId =>
      withSessionLock state sessionId (handleCreateLocked state connection sessionId)
  | .join sessionId roomId =>
      withSessionLock state sessionId (handleJoinLocked state connection sessionId roomId)
  | .leave sessionId roomId participants =>
      handleLeave state connection sessionId roomId participants
  | .sdp sessionId sdp sdpType => handleSdp state connection sessionId sdp sdpType
  | .candidate sessionId candidate sdpMid =>
      handleCandidate state connection sessionId candidate sdpMid

/-- Handle a message and report an error to the client; whether the connection
goes on. -/
def handleText (jwt : Jwt) (message : ClientMessage) : Call Bool := do
  match ← (handleClientMessage state connection jwt message).run with
  | .ok () => return true
  | .error .writeFailed => return false
  | .error error =>
      issue (.sendMessage connection
        (.error (mapError error).1 (mapError error).2))

/-! ## The end of a connection -/

/-- The session a connection leaves behind, from the node's registry or from Redis. -/
def sessionForCleanup (sessionId : SessionId) : Call (Option SessionState) := do
  match ← state.getSession sessionId with
  | some session => return some session
  | none => do
      let found ← (sessionGet sessionId).run
      return found.toOption.join

/-- Take the session of a closed connection out of its room. -/
def leaveOnDisconnect (sessionId : SessionId) (nickname : Nickname) : Option RoomId → Call Unit
  | none => return ()
  | some roomId => do
      leaveRoomAndNotify state roomId nickname "signaling_disconnected"
      let _ ← (sessionSetRoom sessionId none).run
      state.setSessionRoom sessionId none

/-- Stop counting a closed connection in the node's load. -/
def uncountOnDisconnect (context : ConnectionContext) : Call Unit := do
  if context.instanceLoadRegistered then
    let _ ← (decrementInstanceLoad state.config.publicNodeId).run
  else return ()

def cleanupSession (context : ConnectionContext) (sessionId : SessionId) : Call Unit := do
  if ← State.isRedisAvailable then
    match ← sessionForCleanup state sessionId with
    | none => state.removeSession sessionId
    | some session => do
        leaveOnDisconnect state sessionId session.nickname session.roomId
        uncountOnDisconnect state context
        state.removeSession sessionId
  else state.removeSession sessionId

def cleanupConnection : Call Unit := do
  setContext connection ({ · with leaseRenewer := none })
  let context ← getContext connection
  match context.sessionId with
  | none => return ()
  | some sessionId => cleanupSession state context sessionId

end Callifornia.Signaling
