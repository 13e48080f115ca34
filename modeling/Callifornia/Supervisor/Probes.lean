import Callifornia.Supervisor.Storage

/-! # The supervisor's probes and its janitor

One tick of each background loop. Failures that the source logs and ignores are
ignored here.
-/

namespace Callifornia.Supervisor

open Concurrency FiniteMap Store Signaling

structure SignalingAdminInstance where
  nodeId : NodeId
  grpcAddr : Address
  deriving DecidableEq

structure Config where
  signalingAdminInstances : List SignalingAdminInstance
  /-- How long a signaling node may be missing from probes before considered stale. -/
  signalingStaleTimeoutSecs : ℕ
  /-- The number of pages granted to a `SCAN` loop; results hold for every value. -/
  loopBound : ℕ

variable (config : Config)

/-- Run an operation whose failure is only logged. -/
def logged (call : StoreCall Unit) : Call Unit := do
  let _ ← call.run

/-! ## Probing signaling nodes -/

def checkAndPurgeDeadSignaling (probed : SignalingAdminInstance) : Call Unit := do
  match ← (aliveSignalingNodes config.signalingStaleTimeoutSecs).run with
  | .error _ => return ()
  | .ok alive =>
      if probed.nodeId ∈ alive then return ()
      else logged (removeSignalingNode probed.nodeId)

def probeSignalingInstance (probed : SignalingAdminInstance) : Call Unit := do
  if ← issue (.pingSignaling probed.nodeId) then do
    let now ← unixNow
    logged (writeSignalingNodeSeen probed.nodeId now)
  else checkAndPurgeDeadSignaling config probed

/-- One tick of `signaling_probe_loop`. -/
def signalingProbeTick : Call Unit :=
  config.signalingAdminInstances.forM (probeSignalingInstance config)

/-! ## Probing SFUs -/

/-- Ask the owner of a room to close the rooms of a dead SFU. -/
def notifyOwner (ownerId : NodeId) (sfuGrpcAddr : Address) : Call Unit := do
  if ownerId = "" then return ()
  else
    match config.signalingAdminInstances.find? (·.nodeId = ownerId) with
    | none => return ()
    | some owner => do
        let _ ← issue (.closeRoomsBySfu ⟨owner.nodeId, sfuGrpcAddr, "sfu_down"⟩)

/-- Give back the SFU slot of a binding that names its instance. -/
def releaseSlot : Option InstanceId → Call Unit
  | some sfuInstanceId => logged (decrementSfuRoomLoad sfuInstanceId)
  | none => return ()

/-- Clean a room out of Redis. -/
def reclaimRoom (roomId : RoomId) (binding : RoomBinding) : Call Unit := do
  releaseSlot binding.sfuInstanceId
  logged (deleteRoomAssignment roomId)
  logged (deleteSignalingRoomMembers roomId)

/-- One room of the loop of `handle_dead_sfu`. -/
def closeDeadSfuRoom (sfuGrpcAddr : Address) (roomId : RoomId) : Call Unit := do
  match ← (getRoomAssignment roomId).run with
  | .error _ | .ok none => return ()
  | .ok (some binding) =>
      if binding.sfuGrpcAddr ≠ some sfuGrpcAddr then return ()
      else do
        notifyOwner config binding.ownerId sfuGrpcAddr
        reclaimRoom roomId binding

def handleDeadSfu (sfuGrpcAddr : Address) : Call Unit := do
  match ← (scanRoomBindingIds config.loopBound).run with
  | .error _ => return ()
  | .ok bindingIds => bindingIds.forM (closeDeadSfuRoom config sfuGrpcAddr)

/-- One instance of a tick of `sfu_probe_loop`. -/
def probeSfu (now : ℤ) (record : SfuInstance) : Call Unit := do
  let alive ← issue (.pingSfu record.grpcAddr)
  match ← (updateSfuHealth record.instanceId alive now).run with
  | .error _ => return ()
  | .ok () => if alive then return () else handleDeadSfu config record.grpcAddr

/-- One tick of `sfu_probe_loop`. -/
def sfuProbeTick : Call Unit := do
  match ← listSfuInstances.run with
  | .error _ => return ()
  | .ok records => do
      let now ← unixNow
      records.forM (probeSfu config now)

/-! ## The janitor -/

/-- Reclaim a room whose owner is not among the nodes read as alive. -/
def reclaimIfStale (alive : List NodeId) (roomId : RoomId) : StoreCall Unit := do
  match ← getRoomAssignment roomId with
  | none => return ()
  | some binding =>
      if binding.ownerId = "" ∨ binding.ownerId ∈ alive then return ()
      else reclaimRoom roomId binding

/-- Delete a member set whose room was not among the bindings scanned. -/
def deleteIfOrphan (bindingIds : List RoomId) (roomId : RoomId) : StoreCall Unit := do
  if roomId ∈ bindingIds then return ()
  else logged (deleteSignalingRoomMembers roomId)

/-- Remove the load entry of a node that is not among those read as alive. -/
def removeLoadIfStale (alive : List NodeId) (nodeId : NodeId) : StoreCall Unit := do
  if nodeId ∈ alive then return ()
  else logged (removeSignalingLoad nodeId)

/-- Delete a session whose owner is not among the nodes read as alive. -/
def deleteSessionIfStale (alive : List NodeId) (sessionId : SessionId) : StoreCall Unit := do
  match ← getSessionOwner sessionId with
  | none => return ()
  | some owner =>
      if owner ∈ alive then return ()
      else logged (deleteSignalingSession sessionId)

def runJanitorIteration : StoreCall Unit := do
  let alive ← aliveSignalingNodes config.signalingStaleTimeoutSecs
  let now ← unixNow
  let bindingIds ← scanRoomBindingIds config.loopBound
  bindingIds.forM (reclaimIfStale alive)
  let signalingRoomIds ← scanSignalingRoomIds config.loopBound
  signalingRoomIds.forM (deleteIfOrphan bindingIds)
  let loadMembers ← signalingLoadMembers
  loadMembers.forM (removeLoadIfStale alive)
  let sessionIds ← scanSignalingSessionIds config.loopBound
  sessionIds.forM (deleteSessionIfStale alive)
  logged (removeSignalingNodeHeartbeatsBelow (now - config.signalingStaleTimeoutSecs))

end Callifornia.Supervisor
