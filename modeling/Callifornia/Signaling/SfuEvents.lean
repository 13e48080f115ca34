import Callifornia.Signaling.Websocket

/-! # The events an SFU sends to a signaling node

An event names a room and a participant. The handler reports it to the peers it
concerns, and detaches a peer whose channel refuses the report.
-/

namespace Callifornia.Signaling

open Concurrency Store

/-- What has happened; the fields that are only logged are left out. -/
inductive SfuEventDetail
  | peerConnected
  | peerDisconnected
  | trackAdded
  | trackRemoved
  | iceCandidate (candidate sdpMid : String)
  | error (errorMessage : String)
  deriving DecidableEq

structure SfuEvent where
  roomId : RoomId
  participantId : Nickname
  detail : Option SfuEventDetail
  deriving DecidableEq

inductive DeliveryStatus
  | delivered
  | missing
  | stale
  deriving DecidableEq

/-- Send to one peer of the registry. -/
def State.sendToPeer (state : State) (roomId : RoomId) (nickname : Nickname)
    (payload : ServerMessage) : Call DeliveryStatus := do
  match ← issue (.peers state.node (.sender roomId nickname)) with
  | none => return .missing
  | some sender => do
      let sent ← issue (.trySend sender payload)
      return if sent then .delivered else .stale

namespace SfuEvents

variable (state : State) (roomId : RoomId)

/-- Detach the peers whose channel refused a message, without a word to the others. -/
def detachEach (staleNicknames : List Nickname) : Call Unit :=
  staleNicknames.forM (state.detachPeer roomId · "stale_sender")

def broadcastToRoom (exceptNickname : Option Nickname) (payload : ServerMessage) : Call Unit := do
  let stale ← state.broadcastToRoom roomId exceptNickname payload
  detachEach state roomId stale

def sendToPeer (participantId : Nickname) (payload : ServerMessage) : Call Unit := do
  if participantId = "" then return ()
  else
    match ← state.sendToPeer roomId participantId payload with
    | .delivered => return ()
    | .missing => return ()
    | .stale => do
        state.detachPeer roomId participantId "stale_sender"
        let stale ← state.broadcastToRoom roomId (some participantId)
          (.participantLeft participantId)
        detachEach state roomId stale

end SfuEvents

def handleSfuEvent (state : State) (event : SfuEvent) : Call Unit :=
  match event.detail with
  | some .peerConnected => return ()
  | some .peerDisconnected =>
      if event.participantId = "" then return ()
      else
        SfuEvents.broadcastToRoom state event.roomId (some event.participantId)
          (.participantLeft event.participantId)
  | some .trackAdded => return ()
  | some .trackRemoved => return ()
  | some (.iceCandidate candidate sdpMid) =>
      SfuEvents.sendToPeer state event.roomId event.participantId
        (.candidate "sfu" candidate sdpMid)
  | some (.error errorMessage) =>
      SfuEvents.sendToPeer state event.roomId event.participantId
        (.error .sfuUnavailable errorMessage)
  | none => return ()

end Callifornia.Signaling
