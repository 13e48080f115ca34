import Callifornia.Text.Fields
import Callifornia.World

/-! # The Redis operations of a signaling node

Each operation is the program of the commands it issues. An error ends it, as
`?` does.
-/

namespace Callifornia

open Concurrency FiniteMap Store

/-- Issue a Redis command; its failure ends the operation. -/
def redisCommand {ε : Type} (onFailure : RedisFailure → ε) (command : Command) :
    ExceptT ε Call command.Reply :=
  .mk (.call (.redis command) fun reply => .ret (reply.mapError onFailure))

/-- The current time in seconds. -/
def unixNow : Call ℤ := issue .unixNow

/-- Parse a decimal number of at most 16 bits, with an optional leading plus. -/
def parseU16 (text : String) : Option UInt16 :=
  let digits := match text.toList with
    | '+' :: digits => digits
    | digits => digits
  if digits ≠ [] ∧ digits.all Char.isDigit ∧ Nat.ofDigitChars 10 digits 0 < 65536 then
    some (UInt16.ofNat (Nat.ofDigitChars 10 digits 0))
  else none

theorem parseU16_eq (text : String) :
    parseU16 text = (Text.parseNat 65536 text.toList).map UInt16.ofNat := by
  unfold parseU16 Text.parseNat
  rw [apply_ite (Option.map UInt16.ofNat)]
  rfl

/-- A port survives being written as decimal digits. -/
theorem parseU16_toString (port : UInt16) : parseU16 (toString port.toNat) = some port := by
  have digits : (toString port.toNat).toList = Nat.toDigits 10 port.toNat := Nat.toList_repr
  rw [parseU16_eq, digits, Text.parseNat_toDigits port.toNat_lt]
  exact congrArg some (UInt16.ofNat_toNat)

namespace Signaling

inductive RedisRoomError
  | roomNotFound
  | nicknameTaken
  | participantNotInRoom
  | invalidRoomTarget
  | noSfuCapacity
  | roomAlreadyExists
  | timeout
  | redis
  deriving DecidableEq

def RedisRoomError.ofFailure : RedisFailure → RedisRoomError
  | .timeout => .timeout
  | .redis => .redis

/-- An operation on the store. -/
abbrev RedisCall := ExceptT RedisRoomError Call

def command (command : Command) : RedisCall command.Reply := redisCommand .ofFailure command

structure RoomRoute where
  ownerHost : String
  ownerPort : UInt16
  roomState : String
  sfuGrpcAddr : Option Address
  deriving DecidableEq

structure SfuAssignment where
  sfuGrpcAddr : Address
  deriving DecidableEq

structure LeaveRoomResult where
  roomEmpty : Bool
  deriving DecidableEq

def consumeJti (jti : String) (ttlSecs : ℕ) : RedisCall Bool :=
  command (.setNx (.jti jti) "1" (some (max ttlSecs 1 * 1000)))

def sessionSetOwner (sessionId : SessionId) (ownerId : NodeId) : RedisCall Unit :=
  command (.hset (.session sessionId) "signaling_owner_id" ownerId)

def acquireSessionLock (sessionId : SessionId) (owner : String) (ttlMs : ℕ) : RedisCall Bool :=
  command (.setNx (.sessionLock sessionId) owner (some ttlMs))

def releaseSessionLock (sessionId : SessionId) (owner : String) : RedisCall Unit := do
  let _ ← command (.compareAndDel (.sessionLock sessionId) owner)

def releaseNickLease (nickname : Nickname) (sessionId : SessionId) : RedisCall Unit := do
  let _ ← command (.compareAndDel (.nick nickname) sessionId)

def renewSessionTtl (sessionId : SessionId) (ttlSecs : ℕ) : RedisCall Unit := do
  let _ ← command (.expire sessionId ttlSecs)

/-- The session a hash describes, if it has any field. -/
def SessionState.ofFields (values : Map String String) : Option SessionState :=
  if values = ∅ then none
  else some
    { nickname := (values.lookup "nickname").getD ""
      roomId := (values.lookup "room_id").filter (· ≠ "") }

def sessionGet (sessionId : SessionId) : RedisCall (Option SessionState) := do
  let values ← command (.hgetall (.session sessionId))
  return SessionState.ofFields values

def sessionSetRoom (sessionId : SessionId) (roomId : Option RoomId) : RedisCall Unit :=
  command (.hset (.session sessionId) "room_id" (roomId.getD ""))

def sessionDelete (sessionId : SessionId) : RedisCall Unit := do
  let _ ← command (.del (.session sessionId))

/-- One less, clamped at zero; a missing score counts as zero. -/
def decremented (current : Option ℤ) : ℤ :=
  if current.getD 0 ≤ 1 then 0 else current.getD 0 - 1

def incrementInstanceLoad (nodeId : NodeId) : RedisCall Unit :=
  command (.zincr .instanceLoad nodeId 1)

def decrementInstanceLoad (nodeId : NodeId) : RedisCall Unit := do
  let current ← command (.zscore .instanceLoad nodeId)
  command (.zadd .instanceLoad nodeId (decremented current))

/-- The route a binding hash describes. -/
def RoomRoute.ofFields (values : Map String String) : Except RedisRoomError RoomRoute :=
  if values = ∅ then .error .roomNotFound
  else
    match (values.lookup "owner_host").filter (· ≠ ""),
        (values.lookup "owner_port").bind parseU16 with
    | some ownerHost, some ownerPort => .ok
        { ownerHost, ownerPort
          roomState := (values.lookup "room_state").getD "active"
          sfuGrpcAddr := (values.lookup "sfu_grpc_addr").filter (· ≠ "") }
    | _, _ => .error .invalidRoomTarget

def getRoomRoute (roomId : RoomId) : RedisCall RoomRoute := do
  let values ← command (.hgetall (.binding roomId))
  ExceptT.mk (return RoomRoute.ofFields values)

/-- The assignment the script's reply describes. -/
def SfuAssignment.ofReply : List String → Except RedisRoomError SfuAssignment
  | [] => .error .noSfuCapacity
  | first :: rest =>
      if first = "__ROOM_EXISTS__" then .error .roomAlreadyExists
      else
        match rest.head?.filter (· ≠ "") with
        | some sfuGrpcAddr => .ok { sfuGrpcAddr }
        | none => .error .invalidRoomTarget

def assignRoomToLeastLoadedSfu (roomId : RoomId) (ownerId : NodeId) (ownerHost : String)
    (ownerPort : UInt16) : RedisCall SfuAssignment := do
  let now ← unixNow
  let result ← command
    (.assignRoomToSfu roomId ownerHost (toString ownerPort.toNat) ownerId now 30)
  ExceptT.mk (return SfuAssignment.ofReply result)

def joinRoom (roomId : RoomId) (nickname : Nickname) : RedisCall (List Nickname) := do
  let bound ← command (.exists (.binding roomId))
  if !bound then throw .roomNotFound
  else do
    let alreadyTaken ← command (.sismember roomId nickname)
    if alreadyTaken then throw .nicknameTaken
    else do
      command (.sadd roomId nickname)
      let participants ← command (.smembers roomId)
      return participants.filter (· ≠ nickname)

def sremMember (roomId : RoomId) (nickname : Nickname) : RedisCall Unit := do
  let _ ← command (.srem roomId nickname)

def leaveRoom (roomId : RoomId) (nickname : Nickname) : RedisCall LeaveRoomResult := do
  let bound ← command (.exists (.binding roomId))
  if !bound then throw .roomNotFound
  else do
    let removed ← command (.srem roomId nickname)
    if removed = 0 then throw .participantNotInRoom
    else do
      let remaining ← command (.scard roomId)
      if remaining = 0 then do
        let _ ← command (.delMembers roomId)
        return { roomEmpty := true }
      else return { roomEmpty := false }

def updateSfuIdleSince (instanceId : InstanceId) (idleSinceUnix : ℤ) : RedisCall Unit := do
  let payload ← command (.hgetInstance instanceId)
  match payload with
  | none => return ()
  | some record => command (.hsetInstance instanceId { record with idleSinceUnix })

def decrementSfuRoomLoad (instanceId : InstanceId) : RedisCall Unit := do
  let current ← command (.zscore .roomLoad instanceId)
  command (.zadd .roomLoad instanceId (decremented current))
  if decremented current = 0 then do
    let now ← unixNow
    updateSfuIdleSince instanceId now
  else return ()

def closeRoomBinding (roomId : RoomId) : RedisCall Bool := do
  let instanceId ← command (.hget (.binding roomId) "sfu_instance_id")
  let deleted ← command (.del (.binding roomId))
  match if deleted = 0 then none else instanceId with
  | none => return false
  | some instanceId => do
      decrementSfuRoomLoad instanceId
      return true

def deleteRoom (roomId : RoomId) : RedisCall Unit := do
  let _ ← command (.delMembers roomId)

end Signaling

end Callifornia
