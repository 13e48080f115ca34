import Callifornia.Concurrency.Program
import Callifornia.Sfu.Forwarding

/-! # The runtime of an SFU

The rooms of an SFU, and an index of the peers of each signaling node. Every call
is a program over the sections that it executes under the mutex of the runtime.
-/

namespace Callifornia.Sfu

open FiniteMap Concurrency

abbrev RoomId := String

structure SfuRuntime where
  rooms : Map RoomId Room := ∅
  signalingPeers : Map SignalingId (List (RoomId × PeerId)) := ∅

namespace SfuRuntime

variable (runtime : SfuRuntime)

/-! ## Sections -/

def getOrCreateRoom (roomId : RoomId) : Room × SfuRuntime :=
  match runtime.rooms.lookup roomId with
  | some room => (room, runtime)
  | none => ({}, { runtime with rooms := runtime.rooms.insert roomId {} })

/-- Put a room back after a peer was taken out of it; an empty room is dropped. -/
def putBack (roomId : RoomId) (room : Room) : SfuRuntime :=
  { runtime with
    rooms := if room.peerCount = 0 then runtime.rooms.erase roomId
      else runtime.rooms.insert roomId room }

/-- Track a peer under its signaling node. -/
def index (signalingId : SignalingId) (peer : RoomId × PeerId) : SfuRuntime :=
  if signalingId = "" then runtime
  else
    { runtime with
      signalingPeers := runtime.signalingPeers.insert signalingId
        ((runtime.signalingPeers.lookup signalingId).getD [] ++ [peer]) }

/-- The section of `addPeer`; `init` is what `initPeerConnection` does. -/
def addPeer (roomId : RoomId) (participantId : PeerId) (signalingId : SignalingId)
    (init : Except String Unit) (existingParticipants : List PeerId) :
    Except String Unit × SfuRuntime :=
  let (room, runtime) := runtime.getOrCreateRoom roomId
  if (room.findPeer participantId).isSome then (.error "peer already exists", runtime)
  else
    match room.addPeer { participantId, signalingId } existingParticipants with
    | (false, _) => (.error "failed to add peer", runtime)
    | (true, room) =>
        match init with
        | .error what => (.error what, runtime.putBack roomId (room.removePeer participantId).2)
        | .ok () =>
            (.ok (), { runtime with rooms := runtime.rooms.insert roomId room }.index signalingId
              (roomId, participantId))

/-- The peer of a room, if there is the room. -/
def findPeer (roomId : RoomId) (participantId : PeerId) : Option (Option PeerSession) :=
  (runtime.rooms.lookup roomId).map (·.findPeer participantId)

/-- Take a peer out of its room, if there is the room; whether there was the peer. -/
def dropPeer (roomId : RoomId) (participantId : PeerId) : Option Bool × SfuRuntime :=
  match runtime.rooms.lookup roomId with
  | none => (none, runtime)
  | some room =>
      let (removed, room) := room.removePeer participantId
      (some removed, runtime.putBack roomId room)

/-- Remove a peer from the index of the signaling node of a session. -/
def unindex (session : PeerSession) (peer : RoomId × PeerId) : SfuRuntime :=
  match runtime.signalingPeers.lookup session.signalingId with
  | none => runtime
  | some peers =>
      { runtime with
        signalingPeers :=
          if peers.filter (· ≠ peer) = [] then runtime.signalingPeers.erase session.signalingId
          else runtime.signalingPeers.insert session.signalingId (peers.filter (· ≠ peer)) }

/-- The second section of `removePeer`, with the session its first section found. -/
def removePeer (roomId : RoomId) (participantId : PeerId) (session : Option PeerSession) :
    Bool × SfuRuntime :=
  match runtime.dropPeer roomId participantId, session with
  | (none, runtime), _ => (false, runtime)
  | (some removed, runtime), none => (removed, runtime)
  | (some removed, runtime), some session =>
      (removed, runtime.unindex session (roomId, participantId))

/-- Move the peers of a signaling node out of the index. -/
def takeSignaling (signalingId : SignalingId) :
    Option (List (RoomId × PeerId)) × SfuRuntime :=
  match runtime.signalingPeers.lookup signalingId with
  | none => (none, runtime)
  | some toRemove =>
      (some toRemove,
        { runtime with signalingPeers := runtime.signalingPeers.erase signalingId })

end SfuRuntime

/-- What is executed under the mutex of the runtime. -/
inductive Section
  | addPeer (roomId : RoomId) (participantId : PeerId) (signalingId : SignalingId)
      (init : Except String Unit)
  | findPeer (roomId : RoomId) (participantId : PeerId)
  | removePeer (roomId : RoomId) (participantId : PeerId) (session : Option PeerSession)
  | takeSignaling (signalingId : SignalingId)
  | dropPeer (roomId : RoomId) (participantId : PeerId)

abbrev Section.Reply : Section → Type
  | .addPeer .. => Except String Unit
  | .findPeer .. => Option (Option PeerSession)
  | .removePeer .. => Bool
  | .takeSignaling _ => Option (List (RoomId × PeerId))
  | .dropPeer .. => Option Bool

/-- The effect of a section, for some order in which `addPeer` meets the peers of the room. -/
def SfuRuntime.exec : (step : Section) → SfuRuntime → step.Reply → SfuRuntime → Prop
  | .addPeer roomId participantId signalingId init, runtime, reply, after =>
      ∃ existing, Enumerates existing
          ((runtime.getOrCreateRoom roomId).1.peers.keys.erase participantId) ∧
        (reply, after) = runtime.addPeer roomId participantId signalingId init existing
  | .findPeer roomId participantId, runtime, reply, after =>
      reply = runtime.findPeer roomId participantId ∧ after = runtime
  | .removePeer roomId participantId session, runtime, reply, after =>
      (reply, after) = runtime.removePeer roomId participantId session
  | .takeSignaling signalingId, runtime, reply, after =>
      (reply, after) = runtime.takeSignaling signalingId
  | .dropPeer roomId participantId, runtime, reply, after =>
      (reply, after) = runtime.dropPeer roomId participantId

/-! ## Calls -/

abbrev RuntimeCall := Program Section Section.Reply

namespace RuntimeCall

def perform (step : Section) : RuntimeCall step.Reply := Program.perform step

def addPeer (roomId : RoomId) (participantId : PeerId) (signalingId : SignalingId)
    (init : Except String Unit) : RuntimeCall (Except String Unit) :=
  if roomId = "" ∨ participantId = "" then
    return .error "room_id and participant_id must be non-empty"
  else perform (.addPeer roomId participantId signalingId init)

/-- The session is shut down between the two sections. -/
def removePeer (roomId : RoomId) (participantId : PeerId) : RuntimeCall Bool :=
  if roomId = "" ∨ participantId = "" then return false
  else do
    match ← perform (.findPeer roomId participantId) with
    | none => return false
    | some session => perform (.removePeer roomId participantId session)

/-- Remove listed peers, one at a time, and count them. -/
def removeListed : List (RoomId × PeerId) → ℕ → RuntimeCall ℕ
  | [], removed => return removed
  | (roomId, participantId) :: toRemove, removed => do
      match ← perform (.findPeer roomId participantId) with
      | none => removeListed toRemove removed
      | some _ =>
          match ← perform (.dropPeer roomId participantId) with
          | some true => removeListed toRemove (removed + 1)
          | _ => removeListed toRemove removed

def removePeersBySignaling (signalingId : SignalingId) : RuntimeCall ℕ :=
  if signalingId = "" then return 0
  else do
    match ← perform (.takeSignaling signalingId) with
    | none => return 0
    | some toRemove => removeListed toRemove 0

def findPeerSession (roomId : RoomId) (participantId : PeerId) :
    RuntimeCall (Option PeerSession) :=
  if roomId = "" ∨ participantId = "" then return none
  else do
    let found ← perform (.findPeer roomId participantId)
    return found.join

end RuntimeCall

end Callifornia.Sfu
