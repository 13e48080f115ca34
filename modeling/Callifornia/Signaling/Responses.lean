import Callifornia.Concurrency.Logs
import Callifornia.Signaling.Connection
import Callifornia.Signaling.Handlers
import Callifornia.Signaling.Permission

/-! # The responses to a client's messages

A connection's task writes to its client's socket and to no other, and what it writes is what
the events it handles ask for, in their order: a queued message is written as it is, and a text
is answered once, by the response of its kind or by an error, except that an accepted candidate
is not answered. Only the last write can have failed. The replies of all steps are arbitrary, so
this holds among any other tasks and whatever fails.
-/

namespace Callifornia.Signaling

open Concurrency Concurrency.Program Store

/-! ## What is written -/

/-- A message written to a socket, and whether the write succeeded. The pings of the heartbeat
are frames of the protocol and no messages; they are not among these writes. -/
abbrev Write := ConnectionId × ServerMessage × Bool

/-- What a step writes to a socket. -/
def writes : (op : Op) → op.Reply → List Write
  | .sendMessage connection message, written => [(connection, message, written)]
  | _, _ => []

variable {state : State} {connection : ConnectionId} {sessionId : SessionId} {roomId : RoomId}
  {nickname : Nickname} {α β : Type}

/-- A part of a handler writes nothing, and does not fail as if it had. -/
def Prepares (part : WsCall α) : Prop :=
  ∀ entries, part.run.Leaves writes entries fun result after =>
    after = entries ∧ result ≠ .error .writeFailed

/-- What is logged when a handler ends: the answer it wrote, unless it failed before. -/
def Settled (connection : ConnectionId) (fits : ServerMessage → Prop) (entries : List Write) :
    Except WsHandlerError Unit → List Write → Prop
  | .ok (), after => ∃ answer, fits answer ∧ after = entries ++ [(connection, answer, true)]
  | .error .writeFailed, after =>
      ∃ answer, fits answer ∧ after = entries ++ [(connection, answer, false)]
  | .error _, after => after = entries

/-- A handler answers its client once, unless it fails before. -/
def Settles (connection : ConnectionId) (fits : ServerMessage → Prop) (handler : WsCall Unit) :
    Prop :=
  ∀ entries, handler.run.Leaves writes entries (Settled connection fits entries)

/-- A value is no failure. -/
theorem Prepares.pure (value : α) : Prepares (pure value) :=
  fun _ => ⟨rfl, by simp only [ne_eq, reduceCtorEq, not_false_eq_true]⟩

/-- A part may fail before anything is written. -/
theorem Prepares.throw {error : WsHandlerError} (other : error ≠ .writeFailed) :
    Prepares (throw error : WsCall α) :=
  fun _ => ⟨rfl, fun same => other (Except.error.inj same)⟩

/-- Steps that write nothing prepare an answer. -/
theorem Prepares.lift {part : Call α} (only : part.Only (Silent writes)) :
    Prepares (liftM part : WsCall α) := by
  intro entries
  refine Leaves.bind only.leaves fun value after same => ?_
  exact ⟨same, by simp only [ne_eq, reduceCtorEq, not_false_eq_true]⟩

/-- No failure of the store is reported as a failed write. -/
theorem mapRedisError_ne (error : RedisRoomError) : mapRedisError error ≠ .writeFailed := by
  cases error <;> decide

/-- An error of an SFU is not taken for a failed write. -/
theorem mapSfuError_ne (error : SfuClientError) : mapSfuError error ≠ .writeFailed := by
  cases error <;> simp only [mapSfuError, ne_eq, reduceCtorEq, not_false_eq_true]

/-- Commands to Redis write nothing to a socket. -/
theorem Prepares.redis {call : RedisCall α} (only : call.run.Only (Silent writes)) :
    Prepares (redis call) := by
  intro entries
  refine Leaves.bind only.leaves fun value after same => ⟨same, ?_⟩
  cases value with
  | ok value =>
      change Except.ok value ≠ _
      simp only [ne_eq, reduceCtorEq, not_false_eq_true]
  | error error => exact fun named => mapRedisError_ne error (Except.error.inj named)

/-- Two parts that write nothing. -/
theorem Prepares.bind {part : WsCall α} {rest : α → WsCall β} (first : Prepares part)
    (second : ∀ value, Prepares (rest value)) : Prepares (part >>= rest) := by
  intro entries
  refine Leaves.except_bind (first entries) ?_ ?_
  · intro value after ⟨same, _⟩
    rw [same]
    exact second value entries
  · intro error after ⟨same, other⟩
    exact ⟨same, fun named => other (congrArg _ (Except.error.inj named))⟩

/-- A handler that fails before it writes has written nothing. -/
theorem settled_error {fits : ServerMessage → Prop} {entries : List Write}
    {error : WsHandlerError} (other : error ≠ .writeFailed) :
    Settled connection fits entries (.error error) entries := by
  cases error <;> first | rfl | exact absurd rfl other

/-- What is prepared first does not count as an answer. -/
theorem Prepares.settles {part : WsCall α} {rest : α → WsCall Unit} {fits : ServerMessage → Prop}
    (first : Prepares part) (second : ∀ value, Settles connection fits (rest value)) :
    Settles connection fits (part >>= rest) := by
  intro entries
  refine Leaves.except_bind (first entries) ?_ ?_
  · intro value after ⟨same, _⟩
    rw [same]
    exact second value entries
  · intro error after ⟨same, other⟩
    rw [same]
    exact settled_error fun named => other (congrArg _ named)

/-- A handler may fail before it has answered. -/
theorem settles_throw {fits : ServerMessage → Prop} {error : WsHandlerError}
    (other : error ≠ .writeFailed) : Settles connection fits (throw error) :=
  fun _ => settled_error other

/-- A handler may end with steps that write nothing. -/
theorem settles_sendMessage_bind {fits : ServerMessage → Prop} {message : ServerMessage}
    (answers : fits message) {rest : Unit → WsCall Unit}
    (quiet : ∃ calls : Call Unit, calls.Only (Silent writes) ∧ ∀ sent, rest sent = liftM calls) :
    Settles connection fits (sendMessage connection message >>= rest) := by
  obtain ⟨calls, only, same⟩ := quiet
  intro entries written
  cases written with
  | false => exact ⟨message, answers, rfl⟩
  | true =>
      change (rest ()).run.Leaves writes _ _
      rw [same]
      refine Leaves.bind only.leaves fun _ after kept => ?_
      exact ⟨message, answers, kept⟩

/-- The answer is the one thing that is written. -/
theorem settles_sendMessage {fits : ServerMessage → Prop} {message : ServerMessage}
    (answers : fits message) : Settles connection fits (sendMessage connection message) := by
  intro entries written
  cases written with
  | false => exact ⟨message, answers, rfl⟩
  | true => exact ⟨message, answers, rfl⟩

/-! ## The parts of the handlers -/

/-- A ping of Redis writes nothing to the client. -/
theorem isRedisAvailable_silent : State.isRedisAvailable.Only (Silent writes) :=
  State.isRedisAvailable_only fun _ => rfl

/-- The check of Redis writes nothing to the client. -/
theorem prepares_requireRedis : Prepares requireRedis := by
  refine (Prepares.lift isRedisAvailable_silent).bind fun up => ?_
  cases up with
  | false => exact Prepares.throw (by decide)
  | true => exact Prepares.pure ()

/-- The check of a session writes nothing to the client. -/
theorem prepares_checkSession : Prepares (checkSession state connection sessionId) := by
  refine (Prepares.lift (issue_only fun _ => rfl)).bind fun context => ?_
  change Prepares (if context.sessionId.any (· ≠ sessionId) = true then _ else _ :
    WsCall SessionState)
  split
  · exact Prepares.throw (by decide)
  · refine prepares_requireRedis.bind fun _ => ?_
    refine (Prepares.redis (sessionGet_only fun _ => rfl)).bind fun found => ?_
    cases found.filter (·.nickname ≠ "") with
    | none => exact Prepares.throw (by decide)
    | some session =>
        refine (Prepares.lift (issue_only fun _ => rfl)).bind fun _ => ?_
        exact (Prepares.lift (issue_only fun _ => rfl)).bind fun _ => Prepares.pure session

/-- The release of a slot writes nothing to the client. -/
theorem decrementSfuRoomLoad_silent (instanceId : InstanceId) :
    (decrementSfuRoomLoad instanceId).run.Only (Silent writes) :=
  decrementSfuRoomLoad_only (fun _ => rfl) (fun _ _ => rfl) (fun _ => rfl) (fun _ => rfl)
    fun _ _ => rfl

/-- The closing of a binding writes nothing to the client. -/
theorem closeRoomBinding_silent : (closeRoomBinding roomId).run.Only (Silent writes) :=
  closeRoomBinding_only (fun _ => rfl) (fun _ => rfl) decrementSfuRoomLoad_silent

/-- A broadcast is queued at the peers' channels; it is written by their own connections. -/
theorem broadcastToRoom_silent {exceptNickname : Option Nickname} {payload : ServerMessage} :
    (state.broadcastToRoom roomId exceptNickname payload).Only (Silent writes) :=
  State.broadcastToRoom_only (fun _ => rfl) fun _ _ => rfl

/-- The detaching of a peer writes nothing to the client. -/
theorem detachPeer_silent {reason : String} :
    (state.detachPeer roomId nickname reason).Only (Silent writes) :=
  detachPeer_only (fun _ => rfl) (fun _ => rfl) (fun _ => rfl)
    (State.detachMember_only (fun _ => rfl) (fun _ => rfl) (fun _ => rfl) (fun _ => rfl)
      fun _ => rfl) (fun _ _ => rfl) closeRoomBinding_silent

/-- An announcement is queued, not written. -/
theorem announce_silent {message : ServerMessage} :
    (announce state roomId nickname message).Only (Silent writes) :=
  Only.bind broadcastToRoom_silent fun stale =>
    detachStalePeers_only (fun _ => rfl) (fun _ => broadcastToRoom_silent)
      (fun _ => detachPeer_silent) state.config.loopBound stale

/-- Leaving a room is announced through the channels only. -/
theorem leaveRoomAndNotify_silent {reason : String} :
    (leaveRoomAndNotify state roomId nickname reason).Only (Silent writes) :=
  Only.bind detachPeer_silent fun _ => announce_silent

/-- Leaving the room writes nothing before the answer. -/
theorem prepares_leaveRoomOf {participants : Option (List String)} {reason : String} :
    Prepares (leaveRoomOf state connection sessionId roomId nickname participants reason) := by
  refine prepares_requireRedis.bind fun _ => ?_
  refine (Prepares.lift leaveRoomAndNotify_silent).bind fun _ => ?_
  refine (Prepares.redis (redisCommand_only fun _ => rfl)).bind fun _ => ?_
  refine (Prepares.lift (issue_only fun _ => rfl)).bind fun _ => ?_
  exact Prepares.lift (issue_only fun _ => rfl)

/-- Recording the room writes nothing to the client. -/
theorem prepares_recordRoom : Prepares (recordRoom state connection sessionId roomId) := by
  refine (Prepares.redis (redisCommand_only fun _ => rfl)).bind fun _ => ?_
  refine (Prepares.lift (issue_only fun _ => rfl)).bind fun _ => ?_
  exact Prepares.lift (issue_only fun _ => rfl)

/-- Undoing a join writes nothing to the client. -/
theorem undoJoin_silent : (undoJoin roomId nickname).Only (Silent writes) :=
  Only.bind (redisCommand_drop_only fun _ => rfl) fun _ => trivial

/-- Undoing a create writes nothing to the client. -/
theorem undoBinding_silent : (undoBinding roomId).Only (Silent writes) :=
  Only.bind closeRoomBinding_silent fun _ => trivial

/-- Creating a peer writes nothing to the client. -/
theorem ensurePeer_silent {sfuAddr : Address} :
    (state.ensurePeer sfuAddr roomId nickname).Only (Silent writes) :=
  ⟨fun _ => rfl, fun _ => trivial⟩

/-- Joining the member set writes nothing to the client. -/
theorem joinRoom_silent : (joinRoom roomId nickname).run.Only (Silent writes) := by
  refine (redisCommand_only fun _ => rfl).except_bind fun bound => ?_
  cases bound with
  | false => trivial
  | true =>
      refine (redisCommand_only fun _ => rfl).except_bind fun alreadyTaken => ?_
      cases alreadyTaken with
      | true => trivial
      | false =>
          refine (redisCommand_only fun _ => rfl).except_bind fun _ => ?_
          exact (redisCommand_only fun _ => rfl).except_bind fun _ => trivial

/-- Entering a room writes nothing before the answer. -/
theorem prepares_enterRoom {sfuAddr : Address} :
    Prepares (enterRoom state sfuAddr roomId nickname) := by
  refine (Prepares.redis joinRoom_silent).bind fun participants => ?_
  refine (Prepares.lift ensurePeer_silent).bind fun created => ?_
  cases created with
  | ok => exact Prepares.pure participants
  | error error =>
      refine (Prepares.lift undoJoin_silent).bind fun _ => ?_
      exact Prepares.throw (mapSfuError_ne error)

/-- Opening a room writes nothing before the answer. -/
theorem prepares_openRoom {sfuAddr : Address} :
    Prepares (openRoom state sfuAddr roomId nickname) := by
  refine (Prepares.lift joinRoom_silent).bind fun joined => ?_
  cases joined with
  | error error =>
      refine (Prepares.lift undoBinding_silent).bind fun _ => ?_
      exact Prepares.throw (mapRedisError_ne error)
  | ok participants =>
      refine (Prepares.lift ensurePeer_silent).bind fun created => ?_
      cases created with
      | ok => exact Prepares.pure ()
      | error error =>
          refine (Prepares.lift undoJoin_silent).bind fun _ => ?_
          refine (Prepares.lift undoBinding_silent).bind fun _ => ?_
          exact Prepares.throw (mapSfuError_ne error)

/-- The admission of a join writes nothing before the answer. -/
theorem prepares_admitJoin : Prepares (admitJoin state connection sessionId roomId) := by
  refine prepares_checkSession.bind fun session => ?_
  split
  · exact Prepares.throw (by decide)
  · refine (Prepares.lift (issue_only fun _ => rfl)).bind fun context => ?_
    split
    · exact Prepares.throw (by decide)
    · exact Prepares.pure session

/-- The route of a join is read before the answer. -/
theorem prepares_joinTarget : Prepares (joinTarget state roomId) := by
  refine (Prepares.redis (getRoomRoute_only fun _ => rfl)).bind fun route => ?_
  split
  · exact Prepares.throw (by decide)
  · split
    · exact Prepares.throw (by decide)
    · split
      · exact Prepares.throw (by decide)
      · exact Prepares.pure _

/-- The admission of a create writes nothing before the answer. -/
theorem prepares_admitCreate : Prepares (admitCreate state connection sessionId) := by
  refine prepares_checkSession.bind fun session => ?_
  split
  · exact Prepares.throw (by decide)
  · refine (Prepares.lift (issue_only fun _ => rfl)).bind fun context => ?_
    split
    · exact Prepares.throw (by decide)
    · exact Prepares.pure session

/-- The token is checked before the answer. -/
theorem prepares_admitToken {jwt : Jwt} {token : String} :
    Prepares (admitToken state jwt token) := by
  refine (Prepares.lift (issue_only fun _ => rfl)).bind fun now => ?_
  cases validateConnectorToken jwt token state.config.connectorTokenSecret
    state.config.publicNodeId now with
  | error => exact Prepares.throw (by decide)
  | ok claims =>
      change Prepares (if claims.jti = "" then _ else _ : WsCall ConnectorClaims)
      split
      · exact Prepares.pure claims
      · refine (Prepares.redis (redisCommand_only fun _ => rfl)).bind fun consumed => ?_
        cases consumed with
        | false => exact Prepares.throw (by decide)
        | true => exact Prepares.pure claims

/-- The session is given up before the answer. -/
theorem prepares_logoutRedis : Prepares (logoutRedis state connection sessionId nickname) := by
  refine (Prepares.lift isRedisAvailable_silent).bind fun up => ?_
  cases up with
  | false => exact Prepares.pure ()
  | true =>
      refine (Prepares.lift (issue_only fun _ => rfl)).bind fun context => ?_
      have uncounts : Prepares (uncountConnection state connection context) := by
        unfold uncountConnection
        split
        · refine Prepares.bind (Prepares.redis ?_) fun _ => Prepares.lift (issue_only fun _ => rfl)
          exact (redisCommand_only fun _ => rfl).except_bind fun _ => redisCommand_only fun _ => rfl
        · exact Prepares.pure ()
      refine uncounts.bind fun _ => ?_
      refine (Prepares.redis (redisCommand_drop_only fun _ => rfl)).bind fun _ => ?_
      exact Prepares.redis (redisCommand_drop_only fun _ => rfl)

/-- The SFU of the peer is looked up before the answer. -/
theorem prepares_mediaTarget : Prepares (mediaTarget state connection sessionId) := by
  refine prepares_checkSession.bind fun session => ?_
  cases session.roomId with
  | none => exact Prepares.throw (by decide)
  | some roomId =>
      refine (Prepares.redis (getRoomRoute_only fun _ => rfl)).bind fun route => ?_
      cases route.sfuGrpcAddr with
      | none => exact Prepares.throw (by decide)
      | some sfuAddr => exact Prepares.pure _

/-! ## Requests -/

/-- The answer to a request that succeeds. -/
def ClientMessage.Response : ClientMessage → ServerMessage → Prop
  | .attach _, answer => ∃ nickname sessionId, answer = .attached nickname sessionId
  | .logout .., answer => ∃ nickname, answer = .loggedOut nickname
  | .sdp .., answer => ∃ sdpText sdpType, answer = .sdp "sfu" sdpText sdpType
  | .candidate .., _ => False
  | .create _, answer => ∃ roomId nickname, answer = .created roomId nickname
  | .join _ roomId, answer => ∃ nickname participants, answer = .joined roomId nickname participants
  | .leave _ roomId _, answer => answer = .left roomId

/-- A join is answered by the room that was asked for and its participants. -/
theorem handleJoinLocked_settles : Settles connection (ClientMessage.join sessionId roomId).Response
    (handleJoinLocked state connection sessionId roomId) := by
  refine prepares_admitJoin.settles fun session => ?_
  refine prepares_joinTarget.settles fun sfuAddr => ?_
  refine prepares_enterRoom.settles fun participants => ?_
  refine prepares_recordRoom.settles fun _ => ?_
  refine settles_sendMessage_bind ⟨_, _, rfl⟩ ⟨do
    state.register roomId session.nickname ⟨connection, some sfuAddr⟩
    announce state roomId session.nickname (.participantJoined session.nickname), ?_, fun _ => rfl⟩
  exact Only.bind (issue_only fun _ => rfl) fun _ => announce_silent

/-- A create is answered by the new room. -/
theorem handleCreateLocked_settles : Settles connection (ClientMessage.create sessionId).Response
    (handleCreateLocked state connection sessionId) := by
  refine prepares_admitCreate.settles fun session => ?_
  refine (Prepares.lift (issue_only fun _ => rfl)).settles fun roomId => ?_
  refine (Prepares.redis ?_).settles fun assignment => ?_
  · refine (Only.lift (issue_only fun _ => rfl)).except_bind fun now => ?_
    exact (redisCommand_only fun _ => rfl).except_bind fun _ => trivial
  refine prepares_openRoom.settles fun _ => ?_
  refine prepares_recordRoom.settles fun _ => ?_
  exact settles_sendMessage_bind ⟨_, _, rfl⟩ ⟨_, issue_only fun _ => rfl, fun _ => rfl⟩

/-- An attach is answered by the nickname and the session of the token. -/
theorem handleAttach_settles {jwt : Jwt} {token : String} :
    Settles connection (ClientMessage.attach token).Response
      (handleAttach state connection jwt token) := by
  refine (Prepares.lift (issue_only fun _ => rfl)).settles fun context => ?_
  split
  · exact settles_throw (by decide)
  · refine prepares_requireRedis.settles fun _ => ?_
    refine prepares_admitToken.settles fun claims => ?_
    refine (Prepares.redis (sessionGet_only fun _ => rfl)).settles fun found => ?_
    split
    · exact settles_throw (by decide)
    · refine (Prepares.redis (redisCommand_only fun _ => rfl)).settles fun _ => ?_
      refine (Prepares.lift (issue_only fun _ => rfl)).settles fun _ => ?_
      refine (Prepares.redis (redisCommand_only fun _ => rfl)).settles fun _ => ?_
      refine (Prepares.lift (issue_only fun _ => rfl)).settles fun _ => ?_
      refine (Prepares.lift (issue_only fun _ => rfl)).settles fun _ => ?_
      exact settles_sendMessage ⟨_, _, rfl⟩

/-- A logout is answered by the nickname that was given up. -/
theorem handleLogout_settles {participants : Option (List String)} :
    Settles connection (ClientMessage.logout sessionId participants).Response
      (handleLogout state connection sessionId participants) := by
  refine prepares_checkSession.settles fun session => ?_
  have leaves : Prepares (leaveOnLogout state connection sessionId session.nickname participants
      session.roomId) := by
    cases session.roomId with
    | none => exact Prepares.pure ()
    | some roomId => exact @prepares_leaveRoomOf _ _ _ _ _ participants _
  refine leaves.settles fun _ => ?_
  refine prepares_logoutRedis.settles fun _ => ?_
  refine (Prepares.lift (issue_only fun _ => rfl)).settles fun _ => ?_
  refine (Prepares.lift (issue_only fun _ => rfl)).settles fun _ => ?_
  exact settles_sendMessage ⟨_, rfl⟩

/-- A leave is answered by the room that was left. -/
theorem handleLeave_settles {participants : Option (List String)} :
    Settles connection (ClientMessage.leave sessionId roomId participants).Response
      (handleLeave state connection sessionId roomId participants) := by
  refine prepares_checkSession.settles fun session => ?_
  cases session.roomId with
  | none => exact settles_throw (by decide)
  | some currentRoom =>
      change Settles connection _ (if currentRoom ≠ roomId then _ else _ : WsCall Unit)
      split
      · exact settles_throw (by decide)
      · exact prepares_leaveRoomOf.settles fun _ => settles_sendMessage rfl

/-- An SDP is answered by that of the SFU. -/
theorem handleSdp_settles {sdp sdpType : String} :
    Settles connection (ClientMessage.sdp sessionId sdp sdpType).Response
      (handleSdp state connection sessionId sdp sdpType) := by
  refine prepares_mediaTarget.settles fun target => ?_
  refine (Prepares.lift (issue_only fun _ => rfl)).settles fun response => ?_
  cases response with
  | error error => exact settles_throw (mapSfuError_ne error)
  | ok response =>
      dsimp only
      cases State.ensureSuccess ⟨response.success, response.errorMessage⟩ "SFU rejected SDP" with
      | error error => exact settles_throw (mapSfuError_ne error)
      | ok => exact settles_sendMessage ⟨_, _, rfl⟩

/-- A candidate that is taken is not answered. -/
theorem prepares_handleCandidate {candidate sdpMid : String} :
    Prepares (handleCandidate state connection sessionId candidate sdpMid) := by
  refine prepares_mediaTarget.bind fun target => ?_
  refine (Prepares.lift (issue_only fun _ => rfl)).bind fun response => ?_
  cases response with
  | error error => exact Prepares.throw (mapSfuError_ne error)
  | ok response =>
      dsimp only
      cases State.ensureSuccess response "SFU rejected ICE candidate" with
      | error error => exact Prepares.throw (mapSfuError_ne error)
      | ok => exact Prepares.pure ()

/-- Holding the session's lock writes nothing. -/
theorem withSessionLock_settles {fits : ServerMessage → Prop} {handler : WsCall Unit}
    (settles : Settles connection fits handler) :
    Settles connection fits (withSessionLock state sessionId handler) := by
  refine prepares_requireRedis.settles fun _ => ?_
  refine (Prepares.lift (issue_only fun _ => rfl)).settles fun lockOwner => ?_
  refine (Prepares.redis (redisCommand_only fun _ => rfl)).settles fun acquired => ?_
  cases acquired with
  | false => exact settles_throw (by decide)
  | true =>
      intro entries
      refine Leaves.bind (settles entries) fun result after settled => ?_
      refine Leaves.bind (Only.leaves (redisCommand_drop_only fun _ => rfl)) ?_
      intro _ _ same
      rw [same]
      exact settled

/-- A handler of a message that is answered. -/
theorem handleClientMessage_settles {jwt : Jwt} {message : ClientMessage}
    (answered : ∀ sessionId candidate sdpMid, message ≠ .candidate sessionId candidate sdpMid) :
    Settles connection message.Response (handleClientMessage state connection jwt message) := by
  cases message with
  | attach token => exact handleAttach_settles
  | logout sessionId participants => exact handleLogout_settles
  | sdp sessionId sdp sdpType => exact handleSdp_settles
  | candidate sessionId candidate sdpMid => exact absurd rfl (answered sessionId candidate sdpMid)
  | create sessionId => exact withSessionLock_settles handleCreateLocked_settles
  | join sessionId roomId => exact withSessionLock_settles handleJoinLocked_settles
  | leave sessionId roomId participants => exact handleLeave_settles

/-- What a valid message makes the task write: the response of its kind, or an error with which
its own handler can fail, or nothing for a candidate that is taken. -/
inductive ClientMessage.Answered (state : State) (connection : ConnectionId) (jwt : Jwt) :
    ClientMessage → Bool → List Write → Prop
  | response {message : ClientMessage} {answer : ServerMessage} {goesOn : Bool}
      (fits : message.Response answer) : Answered state connection jwt message goesOn
        [(connection, answer, goesOn)]
  | error {message : ClientMessage} {error : WsHandlerError} {goesOn : Bool}
      (fails : (handleClientMessage state connection jwt message).run.Returns (.error error))
      (told : error ≠ .writeFailed) : Answered state connection jwt message goesOn
        [(connection, .error (mapError error).1 (mapError error).2, goesOn)]
  | accepted {sessionId : SessionId} {candidateText sdpMid : String} :
      Answered state connection jwt (.candidate sessionId candidateText sdpMid) true []

/-- What is logged when a handler has ended becomes the answer to its message. -/
theorem reportError_leaves {jwt : Jwt} {message : ClientMessage} {entries after : List Write}
    (result : Except WsHandlerError Unit) :
    (handleClientMessage state connection jwt message).run.Returns result →
    Settled connection message.Response entries result after ∨
      (after = entries ∧ result ≠ .error .writeFailed ∧
        ∃ sessionId candidate sdpMid, message = .candidate sessionId candidate sdpMid) →
    (match result with
      | .ok () => return true
      | .error .writeFailed => return false
      | .error error => issue (.sendMessage connection
          (.error (mapError error).1 (mapError error).2)) : Call Bool).Leaves writes after
      fun goesOn log => ∃ part, log = entries ++ part ∧
        message.Answered state connection jwt goesOn part := by
  intro returned settled
  split
  · rcases settled with ⟨answer, fits, same⟩ | ⟨same, -, sessionId, candidate, sdpMid, rfl⟩
    · exact ⟨_, same, .response fits⟩
    · exact ⟨[], by rw [same, List.append_nil], .accepted⟩
  · rcases settled with ⟨answer, fits, same⟩ | ⟨-, other, -⟩
    · exact ⟨_, same, .response fits⟩
    · exact absurd rfl other
  · rename_i error other
    have same : after = entries := by
      rcases settled with settled | ⟨same, -⟩
      · cases error <;> first | exact settled | exact absurd rfl other
      · exact same
    intro goesOn
    exact ⟨_, by rw [same]; rfl, .error returned other⟩

/-- A valid message is answered once, by its response or an error of its handler. -/
theorem handleText_leaves (jwt : Jwt) (message : ClientMessage) (entries : List Write) :
    (handleText state connection jwt message).Leaves writes entries fun goesOn log =>
      ∃ part, log = entries ++ part ∧ message.Answered state connection jwt goesOn part := by
  by_cases answered : ∃ sessionId candidate sdpMid,
      message = .candidate sessionId candidate sdpMid
  · have prepares : Prepares (handleClientMessage state connection jwt message) := by
      obtain ⟨sessionId, candidate, sdpMid, rfl⟩ := answered
      exact prepares_handleCandidate
    refine Leaves.bind (prepares entries).returns fun result after ⟨returned, same, other⟩ => ?_
    exact reportError_leaves result returned (.inr ⟨same, other, answered⟩)
  · have settles := @handleClientMessage_settles state connection jwt message
      fun sessionId candidate sdpMid same => answered ⟨sessionId, candidate, sdpMid, same⟩
    refine Leaves.bind (settles entries).returns fun result after ⟨returned, settled⟩ => ?_
    exact reportError_leaves result returned (.inl settled)

/-! ## Events -/

/-- What a text makes the task write. -/
def TextAnswered (codec : Codec) (state : State) (connection : ConnectionId) (jwt : Jwt)
    (text : String) (goesOn : Bool) (part : List Write) : Prop :=
  match codec.decode text with
  | none => part = [(connection, .error .invalidJson "Malformed JSON", goesOn)]
  | some message =>
      match message.validate codec with
      | .error error => part = [(connection, .error .invalidPayload error.text, goesOn)]
      | .ok () => message.Answered state connection jwt goesOn part

/-- What an event makes the task write, and whether it goes on. -/
def Event.Answered (codec : Codec) (state : State) (connection : ConnectionId) (jwt : Jwt) :
    Event → Bool → List Write → Prop
  | .heartbeat written, goesOn, part => goesOn = written ∧ part = []
  | .incoming (.frame (.text text)), goesOn, part =>
      TextAnswered codec state connection jwt text goesOn part
  | .incoming (.frame .pong), goesOn, part | .incoming (.frame .ping), goesOn, part
  | .incoming (.frame .binary), goesOn, part => goesOn = true ∧ part = []
  | .incoming _, goesOn, part => goesOn = false ∧ part = []
  | .outbound (some payload), goesOn, part => part = [(connection, payload, goesOn)]
  | .outbound none, goesOn, part => goesOn = false ∧ part = []

/-- What a connection's task writes for a sequence of events, of which it handles all, or the
first ones up to one that ends it. -/
inductive Conversation (codec : Codec) (state : State) (connection : ConnectionId) (jwt : Jwt) :
    List Event → List Write → Prop
  | waiting : Conversation codec state connection jwt [] []
  | goesOn {event : Event} {events : List Event} {part rest : List Write}
      (answered : event.Answered codec state connection jwt true part)
      (continues : Conversation codec state connection jwt events rest) :
      Conversation codec state connection jwt (event :: events) (part ++ rest)
  | ended {event : Event} {events : List Event} {part : List Write}
      (answered : event.Answered codec state connection jwt false part) :
      Conversation codec state connection jwt (event :: events) part

variable {codec : Codec} {jwt : Jwt}

/-- An error is one write. -/
theorem sendError_leaves {code : ServerErrorCode} {text : String} {entries : List Write} :
    (sendError connection code text).Leaves writes entries fun goesOn log =>
      log = entries ++ [(connection, .error code text, goesOn)] :=
  fun _ => rfl

/-- A text is answered, whether or not it can be decoded and is valid. -/
theorem handleTextFrame_leaves (text : String) (entries : List Write) :
    (handleTextFrame codec state connection jwt text).Leaves writes entries fun goesOn log =>
      ∃ part, log = entries ++ part ∧
        TextAnswered codec state connection jwt text goesOn part := by
  unfold handleTextFrame TextAnswered
  cases codec.decode text with
  | none => exact sendError_leaves.mono fun _ _ same => ⟨_, same, rfl⟩
  | some message =>
      dsimp only
      cases message.validate codec with
      | error error => exact sendError_leaves.mono fun _ _ same => ⟨_, same, rfl⟩
      | ok => exact handleText_leaves jwt message entries

/-- Every event is answered as it asks for. -/
theorem handleEvent_leaves (event : Event) (entries : List Write) :
    (handleEvent codec state connection jwt event).Leaves writes entries fun goesOn log =>
      ∃ part, log = entries ++ part ∧
        event.Answered codec state connection jwt goesOn part := by
  have silent (goesOn : Bool) : ∃ part, entries = entries ++ part ∧ (goesOn = goesOn ∧ part = []) :=
    ⟨[], (List.append_nil entries).symm, rfl, rfl⟩
  cases event with
  | heartbeat written => exact silent written
  | outbound payload =>
      cases payload with
      | none => exact silent false
      | some payload => exact fun goesOn => ⟨_, rfl, rfl⟩
  | incoming incoming =>
      cases incoming with
      | elapsed => exact silent false
      | ended => exact silent false
      | failed => exact silent false
      | frame frame =>
          cases frame with
          | text text => exact handleTextFrame_leaves text entries
          | binary => exact silent true
          | ping => exact silent true
          | pong => exact silent true
          | close => exact silent false

/-- The clean-up after a connection writes nothing to its socket. -/
theorem cleanupConnection_silent : (cleanupConnection state connection).Only (Silent writes) := by
  refine Only.bind (issue_only fun _ => rfl) fun _ => ?_
  refine Only.bind (issue_only fun _ => rfl) fun context => ?_
  cases context.sessionId with
  | none => trivial
  | some sessionId =>
      have remove : (state.removeSession sessionId).Only (Silent writes) :=
        issue_only fun _ => rfl
      refine Only.bind isRedisAvailable_silent fun up => ?_
      cases up with
      | false => exact remove
      | true =>
          refine Only.bind (sessionForCleanup_only (fun _ => rfl) fun _ => rfl) fun found => ?_
          cases found with
          | none => exact remove
          | some session =>
              have leaves : (leaveOnDisconnect state sessionId session.nickname
                  session.roomId).Only (Silent writes) := by
                cases session.roomId with
                | none => trivial
                | some roomId =>
                    refine Only.bind leaveRoomAndNotify_silent fun _ => ?_
                    refine Only.bind (redisCommand_only fun _ => rfl) fun _ => ?_
                    exact issue_only fun _ => rfl
              have uncounts : (uncountOnDisconnect state context).Only (Silent writes) := by
                unfold uncountOnDisconnect
                split
                · refine Only.bind ?_ fun _ => trivial
                  exact (redisCommand_only fun _ => rfl).except_bind fun _ =>
                    redisCommand_only fun _ => rfl
                · trivial
              exact Only.bind leaves fun _ => Only.bind uncounts fun _ => remove

/-- The events are answered one after the other, up to one that ends the connection. -/
theorem handleWs_leaves (events : List Event) (entries : List Write) :
    (handleWs codec state connection jwt events).Leaves writes entries fun _ log =>
      ∃ part, log = entries ++ part ∧
        Conversation codec state connection jwt events part := by
  induction events generalizing entries with
  | nil => exact ⟨[], (List.append_nil entries).symm, .waiting⟩
  | cons event events ih =>
      refine Leaves.bind (handleEvent_leaves event entries) fun goesOn log => ?_
      rintro ⟨part, rfl, answered⟩
      cases goesOn with
      | false =>
          refine cleanupConnection_silent.leaves.mono fun _ after same => ?_
          exact ⟨part, same, .ended answered⟩
      | true =>
          refine (ih (entries ++ part)).mono fun _ after => ?_
          rintro ⟨rest, rfl, continues⟩
          exact ⟨part ++ rest, List.append_assoc .., .goesOn answered continues⟩

/-! ## What a client sees -/

/-- An event makes the task write to its own socket at most once. -/
theorem Event.Answered.own {event : Event} {goesOn : Bool} {part : List Write}
    (answered : event.Answered codec state connection jwt goesOn part) :
    part = [] ∨ ∃ message, part = [(connection, message, goesOn)] := by
  have request {message : ClientMessage}
      (answered : message.Answered state connection jwt goesOn part) :
      part = [] ∨ ∃ message, part = [(connection, message, goesOn)] := by
    cases answered with
    | response => exact .inr ⟨_, rfl⟩
    | error => exact .inr ⟨_, rfl⟩
    | accepted => exact .inl rfl
  cases event with
  | heartbeat written => exact .inl answered.2
  | outbound payload =>
      cases payload with
      | none => exact .inl answered.2
      | some payload => exact .inr ⟨payload, answered⟩
  | incoming incoming =>
      cases incoming with
      | elapsed => exact .inl answered.2
      | ended => exact .inl answered.2
      | failed => exact .inl answered.2
      | frame frame =>
          cases frame with
          | binary => exact .inl answered.2
          | ping => exact .inl answered.2
          | pong => exact .inl answered.2
          | close => exact .inl answered.2
          | text text =>
              change TextAnswered codec state connection jwt text goesOn part at answered
              unfold TextAnswered at answered
              split at answered
              · exact .inr ⟨_, answered⟩
              · split at answered
                · exact .inr ⟨_, answered⟩
                · exact request answered

/-- Whatever happens, the task writes to its own client only, what the events ask for in their
order, and only its last write can have failed. -/
theorem Conversation.own {events : List Event} {log : List Write}
    (conversation : Conversation codec state connection jwt events log) :
    (∀ write ∈ log, write.1 = connection) ∧ ∀ write ∈ log.dropLast, write.2.2 = true := by
  induction conversation with
  | waiting => exact ⟨List.forall_mem_nil _, List.forall_mem_nil _⟩
  | @ended event events part answered =>
      rcases answered.own with rfl | ⟨message, rfl⟩
      · exact ⟨List.forall_mem_nil _, List.forall_mem_nil _⟩
      · exact ⟨List.forall_mem_singleton.mpr rfl, List.forall_mem_nil _⟩
  | @goesOn event events part rest answered continues ih =>
      rcases answered.own with rfl | ⟨message, rfl⟩
      · exact ih
      · refine ⟨List.forall_mem_cons.mpr ⟨rfl, ih.1⟩, ?_⟩
        cases rest with
        | nil => exact List.forall_mem_nil _
        | cons first rest => exact List.forall_mem_cons.mpr ⟨rfl, ih.2⟩

/-- The task of a connection, among any other tasks and whatever its steps reply. -/
theorem handleWs_writes {World : Type} {exec : (op : Op) → World → op.Reply → World → Prop}
    {events : List Event} {before after : World} {log : List Write}
    (run : (handleWs codec state connection jwt events).Runs (Logged exec writes) (before, []) ()
      (after, log)) :
    Conversation codec state connection jwt events log ∧
      (∀ write ∈ log, write.1 = connection) ∧ ∀ write ∈ log.dropLast, write.2.2 = true := by
  obtain ⟨part, same, conversation⟩ := (handleWs_leaves events []).runs run
  obtain rfl : log = part := same
  exact ⟨conversation, conversation.own⟩

/-! ## A conversation -/

/-- One text attaches, one creates a room for a session that the client is not attached to, and
others are malformed. -/
def sampleCodec : Codec where
  decode text :=
    if text = "attach" then some (.attach Permission.firstToken)
    else if text = "create" then some (.create "session-2")
    else none
  isUuid _ := true

def sampleEvents : List Event :=
  [.incoming (.frame (.text "attach")), .incoming (.frame (.text "create")), .heartbeat true,
    .outbound (some (.participantJoined "bob")), .incoming (.frame (.text "hello"))]

def sampleAnswers : List Write :=
  [(0, .attached "alice" "session-1", true),
    (0, .error .sessionConflict "Invalid or conflicting session", true),
    (0, .participantJoined "bob", true), (0, .error .invalidJson "Malformed JSON", true)]

/-- One outcome of a step, with what it writes. -/
def sampleWrites (hint : Hint) (op : Op) (now : World × List Write) :
    Option (op.Reply × (World × List Write)) :=
  (World.sample hint op now.1).map fun outcome =>
    (outcome.1, (outcome.2, now.2 ++ writes op outcome.1))

/-- What the sampler computes is a step with its writes. -/
theorem sampleWrites_sound (hint : Hint) (op : Op) (before : World × List Write)
    (reply : op.Reply) (after : World × List Write)
    (sampled : sampleWrites hint op before = some (reply, after)) :
    Logged World.exec writes op before reply after := by
  obtain ⟨outcome, found, same⟩ := Option.map_eq_some_iff.mp sampled
  cases same
  exact ⟨World.sample_sound found, rfl⟩

/-- A client attaches, is refused a room for another session, is told of a participant, and sends
a text that is no JSON. -/
theorem handleWs_writes_attached : ∃ after : World,
    (handleWs sampleCodec sampleNode 0 TokenFormat.openJwt sampleEvents).Runs
      (Logged World.exec writes) (Permission.twoSessions, []) () (after, sampleAnswers) ∧
    Conversation sampleCodec sampleNode 0 TokenFormat.openJwt sampleEvents sampleAnswers ∧
    (∀ write ∈ sampleAnswers, write.1 = 0) ∧ ∀ write ∈ sampleAnswers.dropLast,
      write.2.2 = true := by
  let test (_ : Unit) (after : World × List Write) : Bool := decide (after.2 = sampleAnswers)
  have passes : ((handleWs sampleCodec sampleNode 0 TokenFormat.openJwt sampleEvents).follow
      sampleWrites (noHints 12 ++ { names := ["lock-1"] } :: noHints 12)
      (Permission.twoSessions, [])).any (fun outcome => test outcome.1 outcome.2) = true := by
    decide +kernel
  obtain ⟨_, ⟨after, log⟩, run, passed⟩ := exists_of_follow sampleWrites_sound passes
  obtain rfl : log = sampleAnswers := of_decide_eq_true passed
  exact ⟨after, run, handleWs_writes run⟩

end Callifornia.Signaling
