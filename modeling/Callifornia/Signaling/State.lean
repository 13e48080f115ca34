import Callifornia.Signaling.Redis

/-! # The shared operations of a signaling node

Broadcasts, calls to an SFU, detaching one peer and closing the rooms of a lost
SFU. Failures that the source logs and ignores are ignored here.
-/

namespace Callifornia.Signaling

open Concurrency FiniteMap Store

structure Config where
  signalingPublicHost : String
  signalingPublicPort : UInt16
  connectorTokenSecret : String
  sessionLockTtlMs : ℕ
  /-- The number of iterations granted to a loop that the source leaves open;
  results hold for every value. -/
  loopBound : ℕ

/-- `host:port`. -/
def Config.publicNodeId (config : Config) : NodeId :=
  config.signalingPublicHost ++ ":" ++ toString config.signalingPublicPort.toNat

structure State where
  config : Config

namespace State

variable (state : State)

/-- The id under which the node's registries are kept. -/
def node : NodeId := state.config.publicNodeId

/-- `PING`; any failure counts as unavailable. -/
def isRedisAvailable : Call Bool := do
  match ← issue (.redis .ping) with
  | .ok _ => return true
  | .error _ => return false

/-! ## Registries -/

def register (roomId : RoomId) (nickname : Nickname) (entry : PeerEntry) : Call Unit :=
  issue (.peers state.node (.register roomId nickname entry))

def unregister (roomId : RoomId) (nickname : Nickname) : Call Unit :=
  issue (.peers state.node (.unregister roomId nickname))

/-- Send to every target in turn; the nicknames whose channel refused. -/
def sendToEach (payload : ServerMessage) : List (Nickname × ConnectionId) → Call (List Nickname)
  | [] => return []
  | (nickname, sender) :: targets => do
      let sent ← issue (.trySend sender payload)
      let stale ← sendToEach payload targets
      return if sent then stale else nickname :: stale

def broadcastToRoom (roomId : RoomId) (exceptNickname : Option Nickname)
    (payload : ServerMessage) : Call (List Nickname) := do
  let targets ← issue (.peers state.node (.targets roomId exceptNickname))
  sendToEach payload targets

def upsertSession (sessionId : SessionId) (session : SessionState) : Call Unit :=
  issue (.sessions state.node (.upsert sessionId session))

def getSession (sessionId : SessionId) : Call (Option SessionState) :=
  issue (.sessions state.node (.get sessionId))

def removeSession (sessionId : SessionId) : Call Unit :=
  issue (.sessions state.node (.remove sessionId))

def setSessionRoom (sessionId : SessionId) (roomId : Option RoomId) : Call Unit :=
  issue (.sessions state.node (.setRoom sessionId roomId))

def clearSessionRoom (roomId : RoomId) : Call (List SessionId) :=
  issue (.sessions state.node (.clearRoom roomId))

/-! ## Calls to an SFU -/

def ensureSuccess (response : PeerResponse) (fallback : String) : Except SfuClientError Unit :=
  if response.success then .ok ()
  else .error (.rejected (response.errorMessage.getD fallback))

def ensurePeer (sfuAddr : Address) (roomId : RoomId) (nickname : Nickname) :
    Call (Except SfuClientError Unit) := do
  let response ← issue (.createPeer sfuAddr roomId nickname state.node)
  return response.bind (ensureSuccess · "SFU failed to create peer")

def deletePeer (sfuAddr : Address) (roomId : RoomId) (nickname : Nickname) (reason : String) :
    Call (Except SfuClientError Unit) := do
  let response ← issue (.deletePeer sfuAddr roomId nickname reason)
  return response.bind (ensureSuccess · "SFU failed to delete peer")

/-! ## Detaching a peer -/

/-- The route of a room before a detach, if it can be read. -/
def routeBeforeDetach (roomId : RoomId) : Call (Option RoomRoute) := do
  if ← isRedisAvailable then
    let route ← (getRoomRoute roomId).run
    return route.toOption
  else return none

/-- Remove a member in Redis; whether the room is empty now. -/
def detachMember (roomId : RoomId) (nickname : Nickname) : Call Bool := do
  if ← isRedisAvailable then
    let result ← (leaveRoom roomId nickname).run
    return (result.toOption.map LeaveRoomResult.roomEmpty).getD false
  else return false

/-- Remove a peer from the SFU of its room, if that is known. -/
def detachFromSfu (roomId : RoomId) (nickname : Nickname) (reason : String) :
    Option Address → Call Unit
  | some sfuAddr => do let _ ← deletePeer sfuAddr roomId nickname reason
  | none => return ()

/-- Close the binding of a room that became empty. -/
def closeIfEmpty (roomId : RoomId) (roomEmpty : Bool) : Call Unit := do
  if roomEmpty then
    let _ ← (closeRoomBinding roomId).run

def detachPeer (roomId : RoomId) (nickname : Nickname) (reason : String) : Call Unit := do
  let route ← routeBeforeDetach roomId
  state.unregister roomId nickname
  let roomEmpty ← detachMember roomId nickname
  detachFromSfu roomId nickname reason (route.bind RoomRoute.sfuGrpcAddr)
  closeIfEmpty roomId roomEmpty

/-! ## Closing the rooms of a lost SFU -/

/-- Clear the room of an affected session in Redis. -/
def clearRedisRoom (sessionId : SessionId) : Call Unit := do
  let _ ← (sessionSetRoom sessionId none).run

/-- Close one room whose route named the lost SFU. -/
def closeRoom (roomId : RoomId) (participants : List Nickname) (reason : String) :
    Call Unit := do
  let stale ← state.broadcastToRoom roomId none (.roomClosed roomId reason)
  participants.forM (state.unregister roomId)
  stale.forM (state.unregister roomId)
  let affectedSessions ← state.clearSessionRoom roomId
  if ← isRedisAvailable then
    let _ ← (closeRoomBinding roomId).run
    let _ ← (deleteRoom roomId).run
    affectedSessions.forM clearRedisRoom

/-- Close a room of the snapshot if its route names the lost SFU. -/
def closeRoomIfOnSfu (sfuAddr : Address) (reason : String) (room : RoomId × List Nickname) :
    Call Unit := do
  match ← (getRoomRoute room.1).run with
  | .error _ => return ()
  | .ok route =>
      if route.sfuGrpcAddr = some sfuAddr then state.closeRoom room.1 room.2 reason
      else return ()

def closeRoomsDueToSfuAddr (sfuAddr : Address) (reason : String) : Call Unit := do
  let rooms ← issue (.peers state.node .snapshotRooms)
  rooms.forM (state.closeRoomIfOnSfu sfuAddr reason)

/-! ## Purging the node -/

/-- Remove the peers of one room from the SFUs they are registered with; failures are only
logged. -/
def purgePeers (room : RoomId × List (Nickname × Option Address)) : Call Unit :=
  room.2.forM fun participant =>
    detachFromSfu room.1 participant.1 "signaling_purge" participant.2

/-- `run_purge` once it has set the flag that keeps a second purge out; the flag and the SFU
clients that it drops are in `Purge`. -/
def runPurge (dependency : String) : Call Unit := do
  let rooms ← issue (.peers state.node .snapshotRoomsWithSfu)
  rooms.forM fun room => do
    let _ ← state.broadcastToRoom room.1 none (.serviceUnavailable dependency 5000)
  rooms.forM purgePeers
  issue (.peers state.node .clear)
  issue (.sessions state.node .clear)

end State

end Callifornia.Signaling
