import Callifornia.Store.FiniteMap

/-! # A room of an SFU

The peers of a room, who subscribes to whom, and for each published track the
relay tracks it is forwarded to. Hash maps are finite maps; where the source
iterates over one, the order met is an argument.
-/

namespace Callifornia.Sfu

open FiniteMap

/-- A participant of a room. -/
abbrev PeerId := String

/-- The signaling node a participant belongs to. -/
abbrev SignalingId := String

/-- The track id of a publisher, or the id under which it is relayed. -/
abbrev TrackId := String

/-- The identity of a track object of the WebRTC library. -/
abbrev Track := ℕ

structure PeerSession where
  participantId : PeerId
  signalingId : SignalingId := ""
  relayTracks : Map TrackId Track := ∅

namespace PeerSession

/-- The relay under an id; `made` is the track the library adds if there is none,
unless it fails. -/
def addRelayTrackIfMissing (session : PeerSession) (relayTrackId : TrackId)
    (made : Option Track) : Option Track × PeerSession :=
  match session.relayTracks.lookup relayTrackId, made with
  | some relay, _ => (some relay, session)
  | none, some made =>
      (some made, { session with relayTracks := session.relayTracks.insert relayTrackId made })
  | none, none => (none, session)

def removeRelayTrack (relayTrackId : TrackId) (session : PeerSession) : PeerSession :=
  { session with relayTracks := session.relayTracks.erase relayTrackId }

end PeerSession

structure ForwardEntry where
  sourceTrack : Track
  relayTracks : List Track := []

structure Room where
  peers : Map PeerId PeerSession := ∅
  subscribersByPublisher : Map PeerId (Finset PeerId) := ∅
  forwardByTrack : Map TrackId ForwardEntry := ∅

def buildRelayTrackId (publisherId : PeerId) (sourceTrackId : TrackId) : TrackId :=
  publisherId ++ "|" ++ sourceTrackId

/-- The relay id belongs to this publisher as far as its prefix tells. -/
def HasPrefix (publisherId : PeerId) (relayTrackId : TrackId) : Prop :=
  (publisherId ++ "|").toList <+: relayTrackId.toList

instance (publisherId : PeerId) (relayTrackId : TrackId) :
    Decidable (HasPrefix publisherId relayTrackId) :=
  inferInstanceAs (Decidable (_ <+: _))

namespace Room

variable (room : Room)

/-- The subscribers recorded for a publisher. -/
def recorded (publisherId : PeerId) : Finset PeerId :=
  (room.subscribersByPublisher.lookup publisherId).getD ∅

/-- The recorded subscribers of a publisher that are present. -/
def subscribers (publisherId : PeerId) : Finset PeerId :=
  (room.recorded publisherId).filter (· ∈ room.peers)

/-- Record a subscriber of a publisher. -/
def subscribe (publisherId subscriberId : PeerId) : Room :=
  { room with
    subscribersByPublisher := room.subscribersByPublisher.insert publisherId
      (insert subscriberId (room.recorded publisherId)) }

/-- Subscribe a new participant to an existing one and back. -/
def subscribeBoth (newId : PeerId) (participantId : PeerId) : Room :=
  (room.subscribe participantId newId).subscribe newId participantId

def addPeer (session : PeerSession) (existingParticipants : List PeerId) : Bool × Room :=
  if session.participantId ∈ room.peers then (false, room)
  else
    (true, existingParticipants.foldl (subscribeBoth · session.participantId)
      { room with peers := room.peers.insert session.participantId session })

/-- The relay ids to remove with a publisher. -/
def toRemoveTrackIds (participantId : PeerId) : Finset TrackId :=
  room.forwardByTrack.keys.filter (HasPrefix participantId)

/-- Drop the relays under some ids at every peer, in whatever order. -/
def removeRelays (relayTrackIds : Finset TrackId) (session : PeerSession) : PeerSession :=
  { session with
    relayTracks := FiniteMap.filter (fun id _ => id ∉ relayTrackIds) session.relayTracks }

def removePeer (participantId : PeerId) : Bool × Room :=
  if participantId ∈ room.peers then
    (true,
      { peers := mapValues (removeRelays (room.toRemoveTrackIds participantId))
          (room.peers.erase participantId)
        subscribersByPublisher := mapValues (·.erase participantId)
          (room.subscribersByPublisher.erase participantId)
        forwardByTrack := FiniteMap.filter (fun id _ => id ∉ room.toRemoveTrackIds participantId)
          room.forwardByTrack })
  else (false, room)

def findPeer (participantId : PeerId) : Option PeerSession := room.peers.lookup participantId

def peerCount : ℕ := room.peers.keys.card

/-- Find or make the forward entry of a relay id. -/
def emplaceEntry (relayTrackId : TrackId) (track : Track) : Room :=
  if relayTrackId ∈ room.forwardByTrack then room
  else
    { room with
      forwardByTrack := room.forwardByTrack.insert relayTrackId { sourceTrack := track } }

/-- Relay a track to one subscriber; a relay that cannot be made is skipped. -/
def addRelay (relayTrackId : TrackId) (made : PeerId → Option Track) (subscriberId : PeerId) :
    Room :=
  match room.peers.lookup subscriberId with
  | none => room
  | some session =>
      match session.addRelayTrackIfMissing relayTrackId (made subscriberId) with
      | (none, _) => room
      | (some relay, session) =>
          { room with
            peers := room.peers.insert subscriberId session
            forwardByTrack := adjust room.forwardByTrack relayTrackId fun entry =>
              { entry with relayTracks := entry.relayTracks ++ [relay] } }

def onPublisherTrackAdded (publisherId : PeerId) (track : Track) (trackId : TrackId)
    (subscribers : List PeerId) (made : PeerId → Option Track) : Room :=
  subscribers.foldl (addRelay · (buildRelayTrackId publisherId trackId) made)
    (room.emplaceEntry (buildRelayTrackId publisherId trackId) track)

/-- Drop the relay under an id at one subscriber. -/
def removeRelay (relayTrackId : TrackId) (subscriberId : PeerId) : Room :=
  { room with peers := adjust room.peers subscriberId (·.removeRelayTrack relayTrackId) }

def onPublisherTrackRemoved (publisherId : PeerId) (trackId : TrackId)
    (subscribers : List PeerId) : Room :=
  subscribers.foldl (removeRelay · (buildRelayTrackId publisherId trackId))
    { room with
      forwardByTrack := room.forwardByTrack.erase (buildRelayTrackId publisherId trackId) }

end Room

/-! ## Events -/

/-- What happens to a room. -/
inductive Event
  | addPeer (participantId : PeerId)
  | removePeer (participantId : PeerId)
  | trackAdded (publisherId : PeerId) (track : Track) (trackId : TrackId)
  | trackRemoved (publisherId : PeerId) (trackId : TrackId)

/-- What the WebRTC library may do in a room: the relay tracks it makes for the
subscribers, if it makes them. -/
abbrev Library := Room → (PeerId → Option Track) → Prop

/-- A library that always makes the relay. -/
def reliable : Library := fun _ made => ∀ peerId, (made peerId).isSome

/-- The effect of an event, for some order of each iteration and some tracks made
by the library. -/
def Room.Effect (library : Library) : Event → Room → Room → Prop
  | .addPeer participantId, room, after =>
      ∃ existing, Enumerates existing (room.peers.keys.erase participantId) ∧
        after = (room.addPeer { participantId } existing).2
  | .removePeer participantId, room, after => after = (room.removePeer participantId).2
  | .trackAdded publisherId track trackId, room, after =>
      ∃ subscribers made, library room made ∧
        Enumerates subscribers (room.subscribers publisherId) ∧
          after = room.onPublisherTrackAdded publisherId track trackId subscribers made
  | .trackRemoved publisherId trackId, room, after =>
      ∃ subscribers, Enumerates subscribers (room.subscribers publisherId) ∧
        after = room.onPublisherTrackRemoved publisherId trackId subscribers

/-- The effect of an event when a track is only added by a present publisher and its
relays are always made. -/
def Room.exec : Event → Room → Room → Prop
  | .trackAdded publisherId track trackId, room, after =>
      publisherId ∈ room.peers ∧
        Room.Effect reliable (.trackAdded publisherId track trackId) room after
  | event, room, after => Room.Effect reliable event room after

end Callifornia.Sfu
