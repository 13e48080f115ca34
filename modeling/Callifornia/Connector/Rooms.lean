import Callifornia.Connector.Routing

/-! # Creating and joining rooms at the connector

For a session that wants to create a room the connector chooses a signaling node, for one that
wants to join a room it looks up the node that owns the room; either way the client is sent to
that node with a token for it.
-/

namespace Callifornia.Connector

open Concurrency FiniteMap Store Signaling

structure SignalingInstance where
  id : NodeId
  wsUrl : String
  deriving DecidableEq

/-- What the two requests read of the configuration. -/
structure RoutingConfig where
  tokenSecret : String
  tokenTtlSecs : ℕ
  signalingStaleTimeoutSecs : ℕ
  /-- How many seconds since the supervisor's heartbeat before a create is rejected. -/
  supervisorStaleSec : ℕ
  signalingInstances : List SignalingInstance

def RoutingConfig.signalingById (config : RoutingConfig) (id : NodeId) :
    Option SignalingInstance :=
  config.signalingInstances.find? (·.id = id)

/-- Why one of the two requests fails. -/
inductive RoutingError
  | handler (error : HandlerError)
  | roomNotFound
  | signalingUnavailable
  | unknownSignalingRoute
  | supervisorUnavailable
  deriving DecidableEq

/-- A request handler. -/
abbrev RoutingCall := ExceptT RoutingError Call

def mapRouteError : RouteError → RoutingError
  | .roomNotFound => .roomNotFound
  | .invalidRoomRoute => .handler .redis
  | .redis error => .handler (mapRedisError error)

structure SignalingReadyResponse where
  signalingUrl : String
  sessionId : SessionId
  token : String
  deriving DecidableEq

/-- When the supervisor was last seen, in seconds. -/
structure SupervisorStatus where
  lastSeenUnix : ℤ
  deriving DecidableEq

variable (config : RoutingConfig)

/-- Fail unless the supervisor was seen lately; `status` is what reading its heartbeat gives. -/
def checkSupervisorFreshness (status : Except RedisError (Option SupervisorStatus)) :
    RoutingCall Unit := do
  match status with
  | .error _ | .ok none => throw .supervisorUnavailable
  | .ok (some status) => do
      let now ← unixNow
      if now - status.lastSeenUnix > config.supervisorStaleSec then throw .supervisorUnavailable
      else return ()

/-- A Redis operation whose error is the handler's. -/
def routing {α : Type} (call : RedisCall α) : RoutingCall α :=
  ExceptT.adapt (fun error => .handler (mapRedisError error)) call

def loadSignalingLoads : RedisCall (List (NodeId × ℤ)) := command (.zrangeWithScores .instanceLoad)

def aliveSignalingNodes (staleThresholdSecs : ℕ) : RedisCall (List NodeId) := do
  let now ← unixNow
  command (.zrangeByScore .signalingNodes (now - staleThresholdSecs))

/-- The load of a node; a missing one counts as zero, and of two the later one counts. -/
def loadOf (loads : List (NodeId × ℤ)) (id : NodeId) : ℤ :=
  ((loads.reverse.find? (·.1 = id)).map Prod.snd).getD 0

def selectLeastLoadedSignaling : RoutingCall SignalingInstance := do
  let loads ← routing loadSignalingLoads
  let alive ← routing (aliveSignalingNodes config.signalingStaleTimeoutSecs)
  match minBy (loadOf loads ·.id) (config.signalingInstances.filter (·.id ∈ alive)) with
  | none => throw .signalingUnavailable
  | some signaling => return signaling

/-- The answer that sends a client to a node. -/
def issueSignalingToken (jwt : Jwt) (sessionId : SessionId) (nickname : Nickname)
    (signaling : SignalingInstance) (intent : String) (roomId : Option RoomId) :
    RoutingCall SignalingReadyResponse := do
  let token ← issueToken jwt config.tokenSecret config.tokenTtlSecs sessionId nickname
    signaling.id intent roomId
  return { signalingUrl := signaling.wsUrl, sessionId, token }

/-- The session of a request. -/
def requireSession (sessionId : SessionId) : RoutingCall SessionData := do
  match ← routing (sessionGet sessionId) with
  | none => throw (.handler .unauthorized)
  | some session => return session

variable (isUuid : String → Bool) (jwt : Jwt)

def create (status : Except RedisError (Option SupervisorStatus)) (sessionId : SessionId) :
    RoutingCall SignalingReadyResponse := do
  if !isUuid sessionId then throw (.handler (.invalidPayload "Invalid create request"))
  else do
    checkSupervisorFreshness config status
    let session ← requireSession sessionId
    let signaling ← selectLeastLoadedSignaling config
    issueSignalingToken config jwt sessionId session.nickname signaling "create" none

def join (sessionId : SessionId) (roomId : RoomId) : RoutingCall SignalingReadyResponse := do
  if !(isUuid sessionId && isUuid roomId) then
    throw (.handler (.invalidPayload "Invalid join request"))
  else do
    let session ← requireSession sessionId
    let route ← ExceptT.adapt mapRouteError (getRoomRoute roomId)
    match config.signalingById route.signalingInstanceId with
    | none => throw .unknownSignalingRoute
    | some signaling =>
        issueSignalingToken config jwt sessionId session.nickname signaling "join" (some roomId)

end Callifornia.Connector
