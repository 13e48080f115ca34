import Callifornia.Signaling.Redis

/-! # The Redis operations of the supervisor -/

namespace Callifornia.Supervisor

open Concurrency FiniteMap Store Signaling

/-- Why an operation failed. -/
inductive Failure
  | redis (failure : RedisFailure)
  | missingSfuInstance
  deriving DecidableEq

/-- An operation on the store. -/
abbrev StoreCall := ExceptT Failure Call

def command (command : Command) : StoreCall command.Reply := redisCommand .redis command

structure RoomBinding where
  roomId : RoomId
  ownerId : NodeId
  ownerHost : String
  ownerPort : UInt16
  state : String
  sfuInstanceId : Option InstanceId
  sfuGrpcAddr : Option Address
  deriving DecidableEq

/-! ## Signaling nodes -/

def writeSignalingNodeSeen (nodeId : NodeId) (nowUnix : ℤ) : StoreCall Unit :=
  command (.zadd .signalingNodes nodeId nowUnix)

def removeSignalingNode (nodeId : NodeId) : StoreCall Unit :=
  command (.zrem .signalingNodes nodeId)

def aliveSignalingNodes (staleThresholdSecs : ℕ) : StoreCall (List NodeId) := do
  let now ← unixNow
  command (.zrangeByScore .signalingNodes (now - staleThresholdSecs))

def removeSignalingNodeHeartbeatsBelow (cutoffUnix : ℤ) : StoreCall Unit :=
  command (.zremrangeByScore .signalingNodes cutoffUnix)

def signalingLoadMembers : StoreCall (List NodeId) := do
  let entries ← command (.zrangeWithScores .instanceLoad)
  return entries.map Prod.fst

def removeSignalingLoad (nodeId : NodeId) : StoreCall Unit :=
  command (.zrem .instanceLoad nodeId)

/-! ## Scans -/

/-- `SCAN` until the cursor is back at its start, for at most `bound` pages. -/
def scanFrom (pattern : ScanPattern) : ℕ → Cursor → List String → StoreCall (List String)
  | 0, _, _ => do nomatch ← issue .outOfFuel
  | bound + 1, cursor, results => do
      let page ← command (.scan pattern cursor)
      match page.2 with
      | none => return results ++ page.1
      | some rest => scanFrom pattern bound (some rest) (results ++ page.1)

def scanRoomBindingIds (bound : ℕ) : StoreCall (List RoomId) := scanFrom .bindings bound none []

def scanSignalingRoomIds (bound : ℕ) : StoreCall (List RoomId) := scanFrom .members bound none []

def scanSignalingSessionIds (bound : ℕ) : StoreCall (List SessionId) :=
  scanFrom .sessions bound none []

/-! ## Sessions, rooms and bindings -/

def getSessionOwner (sessionId : SessionId) : StoreCall (Option NodeId) := do
  let owner ← command (.hget (.session sessionId) "signaling_owner_id")
  return owner.filter (· ≠ "")

def deleteSignalingSession (sessionId : SessionId) : StoreCall Unit := do
  let _ ← command (.del (.session sessionId))

def deleteSignalingRoomMembers (roomId : RoomId) : StoreCall Unit := do
  let _ ← command (.delMembers roomId)

/-- The binding a hash describes, if it has any field. -/
def RoomBinding.ofFields (roomId : RoomId) (values : Map String String) : Option RoomBinding :=
  if values = ∅ then none
  else some
    { roomId
      ownerId := (values.lookup "signaling_owner_id").getD ""
      ownerHost := (values.lookup "owner_host").getD ""
      ownerPort := ((values.lookup "owner_port").bind parseU16).getD 0
      state := (values.lookup "room_state").getD "active"
      sfuInstanceId := (values.lookup "sfu_instance_id").filter (· ≠ "")
      sfuGrpcAddr := (values.lookup "sfu_grpc_addr").filter (· ≠ "") }

def getRoomAssignment (roomId : RoomId) : StoreCall (Option RoomBinding) := do
  let values ← command (.hgetall (.binding roomId))
  return RoomBinding.ofFields roomId values

def deleteRoomAssignment (roomId : RoomId) : StoreCall Unit := do
  let _ ← command (.del (.binding roomId))

/-! ## SFU instances -/

def listSfuInstances : StoreCall (List SfuInstance) := command .hgetallInstances

def getSfuInstance (instanceId : InstanceId) : StoreCall (Option SfuInstance) :=
  command (.hgetInstance instanceId)

def saveSfuInstance (record : SfuInstance) : StoreCall Unit :=
  command (.hsetInstance record.instanceId record)

def updateSfuHealth (instanceId : InstanceId) (alive : Bool) (now : ℤ) : StoreCall Unit := do
  match ← getSfuInstance instanceId with
  | none => return ()
  | some record =>
      saveSfuInstance
        (if alive then { record with alive, lastPingUnix := now, state := "ready" }
        else { record with alive })

def updateIdleSince (instanceId : InstanceId) (idleSinceUnix : ℤ) : StoreCall Unit := do
  match ← getSfuInstance instanceId with
  | none => throw .missingSfuInstance
  | some record => saveSfuInstance { record with idleSinceUnix }

def decrementSfuRoomLoad (instanceId : InstanceId) : StoreCall Unit := do
  let current ← command (.zscore .roomLoad instanceId)
  command (.zadd .roomLoad instanceId (decremented current))
  if decremented current = 0 then do
    let now ← unixNow
    updateIdleSince instanceId now
  else return ()

end Callifornia.Supervisor
