import Callifornia.Sfu.Room

/-! # Forwarding in a room over whole runs

A relay of a track is made for the subscribers present when the track is added,
and never for a peer that joins later; entries are found by a relay id in which
two publishers may meet. The conditions under which neither matters are exactly
those under which every live track reaches every other peer.
-/

namespace Callifornia.Sfu

open FiniteMap

/-- A room with the tracks that are live in it: added, and not removed since their
publisher joined. -/
structure LiveRoom where
  room : Room
  live : Finset (PeerId × TrackId)

namespace LiveRoom

def empty : LiveRoom := ⟨{}, ∅⟩

/-- The live tracks after an event. -/
def liveAfter (live : Finset (PeerId × TrackId)) : Event → Finset (PeerId × TrackId)
  | .addPeer _ => live
  | .removePeer participantId => live.filter (·.1 ≠ participantId)
  | .trackAdded publisherId _ trackId => insert (publisherId, trackId) live
  | .trackRemoved publisherId trackId => live.erase (publisherId, trackId)

def Step (event : Event) (before after : LiveRoom) : Prop :=
  before.room.exec event after.room ∧ after.live = liveAfter before.live event

end LiveRoom

/-- A peer holds a relay under an id, and the forward entry of the id lists it. -/
def Room.Carries (room : Room) (relayTrackId : TrackId) (peerId : PeerId) : Prop :=
  ∃ session relay entry, room.peers.lookup peerId = some session ∧
    session.relayTracks.lookup relayTrackId = some relay ∧
    room.forwardByTrack.lookup relayTrackId = some entry ∧ relay ∈ entry.relayTracks

/-- Every live track of a present publisher is carried by every other peer. -/
def Mesh (state : LiveRoom) : Prop :=
  ∀ publisherId trackId, publisherId ∈ state.room.peers → (publisherId, trackId) ∈ state.live →
    ∀ peerId ∈ state.room.peers, peerId ≠ publisherId →
      state.room.Carries (buildRelayTrackId publisherId trackId) peerId

/-- No event makes a live track unreachable: a peer joins only while no track is
live, and no relay id that an event removes is that of another publisher's live
track which a further peer should carry. -/
def Harmless (before : LiveRoom) : Event → Prop
  | .addPeer participantId => participantId ∉ before.room.peers → before.live = ∅
  | .removePeer participantId => participantId ∈ before.room.peers →
      ∀ track ∈ before.live, track.1 ≠ participantId →
        HasPrefix participantId (buildRelayTrackId track.1 track.2) →
        ∀ peerId ∈ before.room.peers, peerId = participantId ∨ peerId = track.1
  | .trackAdded .. => True
  | .trackRemoved publisherId trackId =>
      ∀ track ∈ before.live, track ≠ (publisherId, trackId) →
        buildRelayTrackId track.1 track.2 = buildRelayTrackId publisherId trackId →
        ∀ peerId ∈ before.room.peers, peerId = track.1

/-- The room records exactly the other peers as subscribers, and only present
publishers have live tracks. -/
structure Consistent (state : LiveRoom) : Prop where
  recorded : ∀ publisherId peerId, peerId ∈ state.room.recorded publisherId ↔
    publisherId ∈ state.room.peers ∧ peerId ∈ state.room.peers ∧ publisherId ≠ peerId
  present : ∀ track ∈ state.live, track.1 ∈ state.room.peers

/-- The subscribers of a publisher are the other peers of the room. -/
theorem Consistent.mem_subscribers {state : LiveRoom} (consistent : Consistent state)
    {publisherId : PeerId} (present : publisherId ∈ state.room.peers) {peerId : PeerId} :
    peerId ∈ state.room.subscribers publisherId ↔
      peerId ∈ state.room.peers ∧ peerId ≠ publisherId := by
  simp only [Room.subscribers, Finset.mem_filter, consistent.recorded, present, true_and]
  constructor
  · intro ⟨⟨member, other⟩, _⟩
    exact ⟨member, other.symm⟩
  · intro ⟨member, other⟩
    exact ⟨⟨member, other.symm⟩, member⟩

/-- A relay's id is the publisher, a bar and the track. -/
theorem toList_buildRelayTrackId (publisherId : PeerId) (trackId : TrackId) :
    (buildRelayTrackId publisherId trackId).toList =
      publisherId.toList ++ '|' :: trackId.toList := by
  simp [buildRelayTrackId, String.toList_append]

/-- The track is read off the relay's id. -/
theorem buildRelayTrackId_injective {publisherId : PeerId} {first second : TrackId}
    (same : buildRelayTrackId publisherId first = buildRelayTrackId publisherId second) :
    first = second := by
  have lists := congrArg String.toList same
  rw [toList_buildRelayTrackId, toList_buildRelayTrackId] at lists
  exact String.toList_inj.mp (List.cons.inj (List.append_cancel_left lists)).2

/-- A relay's id starts with its publisher. -/
theorem hasPrefix_own (publisherId : PeerId) (trackId : TrackId) :
    HasPrefix publisherId (buildRelayTrackId publisherId trackId) := by
  have split := String.toList_append (s := publisherId ++ "|") (t := trackId)
  rw [HasPrefix, buildRelayTrackId, split]
  exact List.prefix_append _ _

namespace Room

/-! ## A peer joins -/

/-- A subscription is recorded for one publisher. -/
theorem recorded_subscribe (room : Room) (publisherId subscriberId query : PeerId) :
    (room.subscribe publisherId subscriberId).recorded query =
      if query = publisherId then insert subscriberId (room.recorded publisherId)
      else room.recorded query := by
  simp only [recorded, subscribe, lookup_insert_if]
  split <;> rfl

/-- A new peer and one that is there subscribe to each other. -/
theorem mem_recorded_subscribeBoth (room : Room) (newId participantId publisherId peerId : PeerId) :
    peerId ∈ (room.subscribeBoth newId participantId).recorded publisherId ↔
      peerId ∈ room.recorded publisherId ∨ (publisherId = participantId ∧ peerId = newId) ∨
        (publisherId = newId ∧ peerId = participantId) := by
  simp only [subscribeBoth, recorded_subscribe]
  split <;> split <;> simp_all [Finset.mem_insert] <;> tauto

/-- A new peer and all that are there subscribe to each other; nothing else changes. -/
theorem foldl_subscribeBoth (room : Room) (newId : PeerId) (existing : List PeerId) :
    (existing.foldl (subscribeBoth · newId) room).peers = room.peers ∧
      (existing.foldl (subscribeBoth · newId) room).forwardByTrack = room.forwardByTrack ∧
      ∀ publisherId peerId,
        peerId ∈ (existing.foldl (subscribeBoth · newId) room).recorded publisherId ↔
          peerId ∈ room.recorded publisherId ∨ (publisherId ∈ existing ∧ peerId = newId) ∨
            (publisherId = newId ∧ peerId ∈ existing) := by
  induction existing generalizing room with
  | nil => simp
  | cons participantId existing ih =>
      obtain ⟨peers, entries, recorded⟩ := ih (room.subscribeBoth newId participantId)
      refine ⟨peers, entries, fun publisherId peerId => ?_⟩
      rw [List.foldl_cons, recorded, mem_recorded_subscribeBoth]
      simp only [List.mem_cons]
      tauto

/-- What a new peer leaves of a room. -/
structure PeerAdded (room : Room) (participantId : PeerId) (after : Room) : Prop where
  peers : after.peers = room.peers.insert participantId { participantId }
  entries : after.forwardByTrack = room.forwardByTrack
  recorded : ∀ publisherId peerId, peerId ∈ after.recorded publisherId ↔
    peerId ∈ room.recorded publisherId ∨
      (publisherId ≠ participantId ∧ publisherId ∈ room.peers ∧ peerId = participantId) ∨
      (publisherId = participantId ∧ peerId ≠ participantId ∧ peerId ∈ room.peers)

/-- What `addPeer` does to a room. -/
theorem addPeer_spec {room : Room} {participantId : PeerId} {existing : List PeerId}
    (absent : participantId ∉ room.peers)
    (all : Enumerates existing (room.peers.keys.erase participantId)) :
    PeerAdded room participantId (room.addPeer { participantId } existing).2 := by
  obtain ⟨peers, entries, recorded⟩ := foldl_subscribeBoth
    { room with peers := room.peers.insert participantId { participantId } } participantId existing
  have others (peerId : PeerId) :
      peerId ∈ existing ↔ peerId ≠ participantId ∧ peerId ∈ room.peers := by
    rw [all.mem_iff, Finset.mem_erase, Finmap.mem_keys]
  unfold addPeer
  rw [if_neg absent]
  refine ⟨peers, entries, fun publisherId peerId => (recorded publisherId peerId).trans ?_⟩
  rw [others, others, and_assoc]
  exact Iff.rfl

/-! ## A track is added -/

/-- A relay is made unless there is one. -/
theorem addRelayTrackIfMissing_eq {session after : PeerSession} {relayTrackId : TrackId}
    {made : Option Track} {relay : Track}
    (added : session.addRelayTrackIfMissing relayTrackId made = (some relay, after)) :
    (session.relayTracks.lookup relayTrackId = some relay ∧ after = session) ∨
      (session.relayTracks.lookup relayTrackId = none ∧ made = some relay ∧
        after = { session with relayTracks := session.relayTracks.insert relayTrackId relay }) := by
  unfold PeerSession.addRelayTrackIfMissing at added
  split at added
  · rename_i held
    cases added
    exact .inl ⟨held, rfl⟩
  · rename_i missing
    cases added
    exact .inr ⟨missing, rfl, rfl⟩
  · cases added

/-- The relay is there afterwards. -/
theorem addRelayTrackIfMissing_lookup {session after : PeerSession} {relayTrackId : TrackId}
    {made : Option Track} {relay : Track}
    (added : session.addRelayTrackIfMissing relayTrackId made = (some relay, after)) :
    after.relayTracks.lookup relayTrackId = some relay := by
  rcases addRelayTrackIfMissing_eq added with ⟨held, rfl⟩ | ⟨_, _, rfl⟩
  · exact held
  · exact Finmap.lookup_insert _

/-- A relay that was there stays the same. -/
theorem addRelayTrackIfMissing_keeps {session after : PeerSession} {relayTrackId query : TrackId}
    {made : Option Track} {relay other : Track}
    (added : session.addRelayTrackIfMissing relayTrackId made = (some relay, after))
    (held : session.relayTracks.lookup query = some other) :
    after.relayTracks.lookup query = some other := by
  rcases addRelayTrackIfMissing_eq added with ⟨_, rfl⟩ | ⟨missing, _, rfl⟩
  · exact held
  · have apart : query ≠ relayTrackId := fun same => by
      rw [same, missing] at held
      cases held
    simp only [lookup_insert_if, apart, ↓reduceIte]
    exact held

/-- The other relays stay as they are. -/
theorem addRelayTrackIfMissing_apart {session after : PeerSession} {relayTrackId query : TrackId}
    {made : Option Track} {relay : Track}
    (added : session.addRelayTrackIfMissing relayTrackId made = (some relay, after))
    (apart : query ≠ relayTrackId) :
    after.relayTracks.lookup query = session.relayTracks.lookup query := by
  rcases addRelayTrackIfMissing_eq added with ⟨_, rfl⟩ | ⟨_, _, rfl⟩
  · rfl
  · simp only [lookup_insert_if, apart, ↓reduceIte]

/-- What relaying a track to one subscriber does, if it does anything. -/
theorem addRelay_cases (room : Room) (relayTrackId : TrackId) (made : PeerId → Option Track)
    (subscriberId : PeerId) :
    room.addRelay relayTrackId made subscriberId = room ∨
      ∃ session relay after, room.peers.lookup subscriberId = some session ∧
        session.addRelayTrackIfMissing relayTrackId (made subscriberId) = (some relay, after) ∧
        room.addRelay relayTrackId made subscriberId =
          { room with
            peers := room.peers.insert subscriberId after
            forwardByTrack := adjust room.forwardByTrack relayTrackId fun entry =>
              { entry with relayTracks := entry.relayTracks ++ [relay] } } := by
  unfold addRelay
  cases found : room.peers.lookup subscriberId with
  | none => exact .inl rfl
  | some session =>
      dsimp only
      cases added : session.addRelayTrackIfMissing relayTrackId (made subscriberId) with
      | mk relay after =>
          cases relay with
          | none => exact .inl rfl
          | some relay => exact .inr ⟨session, relay, after, rfl, added, rfl⟩

/-- Adding a relay adds no peer. -/
theorem mem_addRelay {room : Room} {relayTrackId : TrackId} {made : PeerId → Option Track}
    {subscriberId peerId : PeerId} :
    peerId ∈ (room.addRelay relayTrackId made subscriberId).peers ↔ peerId ∈ room.peers := by
  rcases addRelay_cases room relayTrackId made subscriberId with
    same | ⟨session, relay, after, found, _, changed⟩
  · rw [same]
  · rw [changed, Finmap.mem_insert]
    constructor
    · intro either
      rcases either with same | member
      · rw [same]
        exact Finmap.mem_of_lookup_eq_some found
      · exact member
    · exact .inr

/-- Adding a relay changes no subscription. -/
theorem records_addRelay (room : Room) (relayTrackId : TrackId) (made : PeerId → Option Track)
    (subscriberId : PeerId) :
    (room.addRelay relayTrackId made subscriberId).subscribersByPublisher =
      room.subscribersByPublisher := by
  rcases addRelay_cases room relayTrackId made subscriberId with same | ⟨_, _, _, _, _, changed⟩
  · rw [same]
  · rw [changed]

/-- An entry only gets longer when relays are added. -/
theorem entry_addRelay {room : Room} {query : TrackId} {entry : ForwardEntry}
    (relayTrackId : TrackId) (made : PeerId → Option Track) (subscriberId : PeerId)
    (found : room.forwardByTrack.lookup query = some entry) :
    ∃ longer, (room.addRelay relayTrackId made subscriberId).forwardByTrack.lookup query =
      some longer ∧ entry.relayTracks ⊆ longer.relayTracks := by
  rcases addRelay_cases room relayTrackId made subscriberId with same | ⟨_, _, _, _, _, changed⟩
  · rw [same]
    exact ⟨entry, found, List.Subset.refl _⟩
  · rw [changed]
    simp only [lookup_adjust]
    by_cases same : query = relayTrackId
    · subst same
      simp only [found, ↓reduceIte, Option.map_some]
      exact ⟨_, rfl, List.subset_append_left _ _⟩
    · simp only [same, ↓reduceIte]
      exact ⟨entry, found, List.Subset.refl _⟩

/-- Relaying a track keeps every relay that is there. -/
theorem Carries.addRelay {room : Room} {query : TrackId} {peerId : PeerId}
    (carries : room.Carries query peerId) (relayTrackId : TrackId) (made : PeerId → Option Track)
    (subscriberId : PeerId) :
    (room.addRelay relayTrackId made subscriberId).Carries query peerId := by
  obtain ⟨session, relay, entry, found, held, listed, member⟩ := carries
  obtain ⟨longer, kept, grows⟩ := entry_addRelay relayTrackId made subscriberId listed
  have peer : ∃ session', (room.addRelay relayTrackId made subscriberId).peers.lookup peerId =
      some session' ∧ session'.relayTracks.lookup query = some relay := by
    rcases addRelay_cases room relayTrackId made subscriberId with
      same | ⟨subscriber, _, _, present, added, changed⟩
    · rw [same]
      exact ⟨session, found, held⟩
    · rw [changed]
      simp only [lookup_insert_if]
      by_cases same : peerId = subscriberId
      · subst same
        cases present.symm.trans found
        simp only [↓reduceIte]
        exact ⟨_, rfl, addRelayTrackIfMissing_keeps added held⟩
      · simp only [same, ↓reduceIte]
        exact ⟨session, found, held⟩
  obtain ⟨session', found', held'⟩ := peer
  exact ⟨session', relay, longer, found', held', kept, grows member⟩

/-- The subscriber a track is relayed to carries it. -/
theorem carries_addRelay {room : Room} {relayTrackId : TrackId} {made : PeerId → Option Track}
    {subscriberId : PeerId} (present : subscriberId ∈ room.peers)
    (entered : relayTrackId ∈ room.forwardByTrack) (sure : (made subscriberId).isSome) :
    (room.addRelay relayTrackId made subscriberId).Carries relayTrackId subscriberId := by
  obtain ⟨session, found⟩ := Finmap.mem_iff.mp present
  obtain ⟨entry, listed⟩ := Finmap.mem_iff.mp entered
  have added : ∃ relay after,
      session.addRelayTrackIfMissing relayTrackId (made subscriberId) = (some relay, after) := by
    obtain ⟨track, answer⟩ := Option.isSome_iff_exists.mp sure
    unfold PeerSession.addRelayTrackIfMissing
    rw [answer]
    cases session.relayTracks.lookup relayTrackId with
    | some relay => exact ⟨relay, session, rfl⟩
    | none => exact ⟨track, _, rfl⟩
  obtain ⟨relay, after, added⟩ := added
  unfold Room.addRelay
  simp only [found, added]
  have grown (change : ForwardEntry → ForwardEntry) :
      (adjust room.forwardByTrack relayTrackId change).lookup relayTrackId =
        some (change entry) := by
    rw [lookup_adjust, if_pos rfl, listed, Option.map_some]
  exact ⟨after, relay, _, Finmap.lookup_insert _, addRelayTrackIfMissing_lookup added, grown _,
    List.mem_append_right _ List.mem_cons_self⟩

/-- Relaying a track to its subscribers: each that is given a relay carries it, and
nothing is lost. -/
theorem foldl_addRelay (room : Room) (relayTrackId : TrackId) (made : PeerId → Option Track)
    (subscribers : List PeerId) (present : ∀ peerId ∈ subscribers, peerId ∈ room.peers)
    (entered : relayTrackId ∈ room.forwardByTrack) :
    let after := subscribers.foldl (addRelay · relayTrackId made) room
    (∀ peerId, peerId ∈ after.peers ↔ peerId ∈ room.peers) ∧
      after.subscribersByPublisher = room.subscribersByPublisher ∧
      (∀ query peerId, room.Carries query peerId → after.Carries query peerId) ∧
      ∀ peerId ∈ subscribers, (made peerId).isSome → after.Carries relayTrackId peerId := by
  induction subscribers generalizing room with
  | nil => exact ⟨fun _ => Iff.rfl, rfl, fun _ _ carries => carries, by simp⟩
  | cons first subscribers ih =>
      have here : first ∈ room.peers := present first List.mem_cons_self
      have still : relayTrackId ∈ (room.addRelay relayTrackId made first).forwardByTrack := by
        obtain ⟨entry, found⟩ := Finmap.mem_iff.mp entered
        obtain ⟨longer, kept, -⟩ := entry_addRelay relayTrackId made first found
        exact Finmap.mem_of_lookup_eq_some kept
      obtain ⟨peers, records, kept, reached⟩ := ih (room.addRelay relayTrackId made first)
        (fun peerId member => mem_addRelay.mpr (present peerId (List.mem_cons_of_mem _ member)))
        still
      refine ⟨fun peerId => (peers peerId).trans mem_addRelay,
        records.trans (records_addRelay room relayTrackId made first), ?_, ?_⟩
      · intro query peerId carries
        exact kept query peerId (carries.addRelay relayTrackId made first)
      · intro peerId member sure
        rcases List.mem_cons.mp member with same | later
        · subst same
          exact kept _ _ (carries_addRelay here entered sure)
        · exact reached peerId later sure

/-- The entry of a track is there once it has been emplaced. -/
theorem mem_emplaceEntry (room : Room) (relayTrackId : TrackId) (track : Track) :
    relayTrackId ∈ (room.emplaceEntry relayTrackId track).forwardByTrack := by
  unfold emplaceEntry
  split
  · assumption
  · exact Finmap.mem_insert.mpr (.inl rfl)

/-- What was carried is carried after an entry has been emplaced. -/
theorem Carries.emplaceEntry {room : Room} {query : TrackId} {peerId : PeerId}
    (carries : room.Carries query peerId) (relayTrackId : TrackId) (track : Track) :
    (room.emplaceEntry relayTrackId track).Carries query peerId := by
  unfold Room.emplaceEntry
  split
  · exact carries
  · rename_i absent
    obtain ⟨session, relay, entry, found, held, listed, member⟩ := carries
    refine ⟨session, relay, entry, found, held, ?_, member⟩
    have other : query ≠ relayTrackId := fun same =>
      absent (same ▸ Finmap.mem_of_lookup_eq_some listed)
    simp only [lookup_insert_if, other, ↓reduceIte]
    exact listed

/-- Emplacing an entry changes neither the peers nor the subscriptions. -/
theorem emplaceEntry_peers (room : Room) (relayTrackId : TrackId) (track : Track) :
    (room.emplaceEntry relayTrackId track).peers = room.peers ∧
      (room.emplaceEntry relayTrackId track).subscribersByPublisher =
        room.subscribersByPublisher := by
  unfold emplaceEntry
  split <;> exact ⟨rfl, rfl⟩

/-- What adding a track leaves of a room. -/
structure TrackAdded (room : Room) (relayTrackId : TrackId) (subscribers : List PeerId)
    (made : PeerId → Option Track) (after : Room) : Prop where
  peers : ∀ peerId, peerId ∈ after.peers ↔ peerId ∈ room.peers
  records : after.subscribersByPublisher = room.subscribersByPublisher
  kept : ∀ query peerId, room.Carries query peerId → after.Carries query peerId
  reached : ∀ peerId ∈ subscribers, (made peerId).isSome → after.Carries relayTrackId peerId

/-- What `onPublisherTrackAdded` does to a room. -/
theorem trackAdded_spec {room : Room} {subscribers : List PeerId} (publisherId : PeerId)
    (track : Track) (trackId : TrackId) (made : PeerId → Option Track)
    (present : ∀ peerId ∈ subscribers, peerId ∈ room.peers) :
    TrackAdded room (buildRelayTrackId publisherId trackId) subscribers made
      (room.onPublisherTrackAdded publisherId track trackId subscribers made) := by
  obtain ⟨samePeers, sameRecords⟩ :=
    emplaceEntry_peers room (buildRelayTrackId publisherId trackId) track
  obtain ⟨peers, records, kept, reached⟩ := foldl_addRelay
    (room.emplaceEntry (buildRelayTrackId publisherId trackId) track)
    (buildRelayTrackId publisherId trackId) made subscribers
    (by rw [samePeers]; exact present) (mem_emplaceEntry room _ track)
  refine ⟨fun peerId => ?_, records.trans sameRecords, fun query peerId carries => ?_, reached⟩
  · rw [← samePeers]
    exact peers peerId
  · exact kept query peerId (carries.emplaceEntry _ track)

/-! ## A track or a peer is removed -/

/-- What is carried has an entry. -/
theorem Carries.entered {room : Room} {relayTrackId : TrackId} {peerId : PeerId}
    (carries : room.Carries relayTrackId peerId) : relayTrackId ∈ room.forwardByTrack := by
  obtain ⟨_, _, entry, _, _, listed, _⟩ := carries
  exact Finmap.mem_of_lookup_eq_some listed

/-- Removing the relays of one track leaves those of the others. -/
theorem Carries.removeRelay {room : Room} {query : TrackId} {peerId : PeerId}
    (carries : room.Carries query peerId) {relayTrackId : TrackId} (other : query ≠ relayTrackId)
    (subscriberId : PeerId) :
    (room.removeRelay relayTrackId subscriberId).Carries query peerId := by
  obtain ⟨session, relay, entry, found, held, listed, member⟩ := carries
  unfold Room.Carries Room.removeRelay
  simp only [lookup_adjust]
  by_cases same : peerId = subscriberId
  · subst same
    refine ⟨session.removeRelayTrack relayTrackId, relay, entry, ?_, ?_, listed, member⟩
    · simp only [↓reduceIte, found, Option.map_some]
    · simp only [PeerSession.removeRelayTrack, lookup_erase_if, other, ↓reduceIte]
      exact held
  · simp only [same, ↓reduceIte]
    exact ⟨session, relay, entry, found, held, listed, member⟩

/-- Removing a relay from its subscribers touches nothing else. -/
theorem foldl_removeRelay (room : Room) (relayTrackId : TrackId) (subscribers : List PeerId) :
    let after := subscribers.foldl (removeRelay · relayTrackId) room
    (∀ peerId, peerId ∈ after.peers ↔ peerId ∈ room.peers) ∧
      after.subscribersByPublisher = room.subscribersByPublisher ∧
      after.forwardByTrack = room.forwardByTrack ∧
      ∀ query peerId, query ≠ relayTrackId → room.Carries query peerId →
        after.Carries query peerId := by
  induction subscribers generalizing room with
  | nil => exact ⟨fun _ => Iff.rfl, rfl, rfl, fun _ _ _ carries => carries⟩
  | cons first subscribers ih =>
      obtain ⟨peers, records, entries, kept⟩ := ih (room.removeRelay relayTrackId first)
      refine ⟨fun peerId => (peers peerId).trans mem_adjust, records, entries, ?_⟩
      intro query peerId other carries
      exact kept query peerId other (carries.removeRelay other first)

/-- What removing a track leaves of a room. -/
structure TrackRemoved (room : Room) (relayTrackId : TrackId) (after : Room) : Prop where
  peers : ∀ peerId, peerId ∈ after.peers ↔ peerId ∈ room.peers
  records : after.subscribersByPublisher = room.subscribersByPublisher
  entries : after.forwardByTrack = room.forwardByTrack.erase relayTrackId
  kept : ∀ query peerId, query ≠ relayTrackId → room.Carries query peerId →
    after.Carries query peerId

/-- What `onPublisherTrackRemoved` does to a room. -/
theorem trackRemoved_spec (room : Room) (publisherId : PeerId) (trackId : TrackId)
    (subscribers : List PeerId) :
    TrackRemoved room (buildRelayTrackId publisherId trackId)
      (room.onPublisherTrackRemoved publisherId trackId subscribers) := by
  obtain ⟨peers, records, entries, kept⟩ := foldl_removeRelay { room with
    forwardByTrack := room.forwardByTrack.erase (buildRelayTrackId publisherId trackId) }
    (buildRelayTrackId publisherId trackId) subscribers
  refine ⟨peers, records, entries, fun query peerId other carries => kept query peerId other ?_⟩
  obtain ⟨session, relay, entry, found, held, listed, member⟩ := carries
  refine ⟨session, relay, entry, found, held, ?_, member⟩
  simp only [lookup_erase_if, other, ↓reduceIte]
  exact listed

/-- The other peers stay when one is removed. -/
theorem mem_removePeer {room : Room} {participantId peerId : PeerId}
    (present : participantId ∈ room.peers) :
    peerId ∈ (room.removePeer participantId).2.peers ↔
      peerId ≠ participantId ∧ peerId ∈ room.peers := by
  unfold removePeer
  rw [if_pos present]
  exact mem_mapValues.trans Finmap.mem_erase

/-- A removed peer neither publishes nor subscribes. -/
theorem recorded_removePeer {room : Room} {participantId publisherId : PeerId}
    (present : participantId ∈ room.peers) :
    (room.removePeer participantId).2.recorded publisherId =
      if publisherId = participantId then ∅
      else (room.recorded publisherId).erase participantId := by
  unfold removePeer recorded
  rw [if_pos present]
  simp only [lookup_mapValues, lookup_erase_if]
  by_cases same : publisherId = participantId
  · simp only [same, ↓reduceIte, Option.map_none, Option.getD_none]
  · simp only [same, ↓reduceIte]
    cases room.subscribersByPublisher.lookup publisherId with
    | none => rfl
    | some ids => rfl

/-- A departure keeps the relays of the ids it does not remove. -/
theorem Carries.removePeer {room : Room} {query : TrackId} {peerId participantId : PeerId}
    (carries : room.Carries query peerId) (present : participantId ∈ room.peers)
    (other : peerId ≠ participantId) (foreign : ¬ HasPrefix participantId query) :
    (room.removePeer participantId).2.Carries query peerId := by
  obtain ⟨session, relay, entry, found, held, listed, member⟩ := carries
  have stays : query ∉ room.toRemoveTrackIds participantId := fun removed =>
    foreign (Finset.mem_filter.mp removed).2
  unfold Room.removePeer
  rw [if_pos present]
  refine ⟨removeRelays (room.toRemoveTrackIds participantId) session, relay, entry, ?_, ?_, ?_,
    member⟩
  · simp only [lookup_mapValues, lookup_erase_if, other, ↓reduceIte, found, Option.map_some]
  · exact lookup_filter_eq_some.mpr ⟨held, stays⟩
  · exact lookup_filter_eq_some.mpr ⟨listed, stays⟩

/-- No entry of a removed id is left. -/
theorem not_mem_removePeer {room : Room} {participantId : PeerId} {query : TrackId}
    (present : participantId ∈ room.peers) (removed : HasPrefix participantId query) :
    query ∉ (room.removePeer participantId).2.forwardByTrack := by
  unfold removePeer
  rw [if_pos present]
  intro member
  obtain ⟨entry, found⟩ := Finmap.mem_iff.mp member
  obtain ⟨listed, stays⟩ := lookup_filter_eq_some.mp found
  refine stays (Finset.mem_filter.mpr ⟨?_, removed⟩)
  exact Finmap.mem_keys.mpr (Finmap.mem_of_lookup_eq_some listed)

end Room

/-! ## Steps -/

/-- The subscriptions of an empty room are consistent. -/
theorem consistent_empty : Consistent .empty where
  recorded publisherId peerId := by
    simp [Room.recorded, LiveRoom.empty, Finmap.lookup_empty, Finmap.notMem_empty]
  present := by simp [LiveRoom.empty]

/-- An empty room is a mesh. -/
theorem mesh_empty : Mesh .empty := by
  intro publisherId trackId present
  exact absurd present (Finmap.notMem_empty)

variable {event : Event} {before after : LiveRoom}

/-- Exactly the other peers are recorded as subscribers of a publisher. -/
def Room.RecordsOthers (room : Room) : Prop :=
  ∀ publisherId peerId, peerId ∈ room.recorded publisherId ↔
    publisherId ∈ room.peers ∧ peerId ∈ room.peers ∧ publisherId ≠ peerId

/-- **Step lemma** for what a room records, whatever the library does. -/
theorem Room.RecordsOthers.step {library : Library} {room after : Room}
    (others : room.RecordsOthers) (effect : Room.Effect library event room after) :
    after.RecordsOthers := by
  intro publisherId peerId
  have old := others publisherId peerId
  cases event with
  | addPeer participantId =>
      obtain ⟨existing, all, changed⟩ := effect
      by_cases present : participantId ∈ room.peers
      · have same : after = room := by rw [changed, Room.addPeer, if_pos present]
        rw [same]
        exact old
      · have spec := Room.addPeer_spec present all
        rw [← changed] at spec
        rw [spec.recorded, spec.peers, Finmap.mem_insert, Finmap.mem_insert, old]
        by_cases first : publisherId = participantId <;>
          by_cases second : peerId = participantId <;> simp_all [eq_comm]
  | removePeer participantId =>
      have changed : after = _ := effect
      by_cases present : participantId ∈ room.peers
      · rw [changed, Room.recorded_removePeer present, Room.mem_removePeer present,
          Room.mem_removePeer present]
        by_cases same : publisherId = participantId
        · simp [same]
        · simp only [same, ↓reduceIte, Finset.mem_erase, old, ne_eq, not_false_eq_true, true_and]
          tauto
      · rw [changed, Room.removePeer, if_neg present]
        exact old
  | trackAdded otherId track trackId =>
      obtain ⟨subscribers, made, -, all, changed⟩ := effect
      have spec := Room.trackAdded_spec otherId track trackId made fun peerId member =>
        (Finset.mem_filter.mp (all.mem_iff.mp member)).2
      rw [← changed] at spec
      rw [Room.recorded, spec.records, spec.peers, spec.peers]
      exact old
  | trackRemoved otherId trackId =>
      obtain ⟨subscribers, all, changed⟩ := effect
      have spec := Room.trackRemoved_spec room otherId trackId subscribers
      rw [← changed] at spec
      rw [Room.recorded, spec.records, spec.peers, spec.peers]
      exact old

/-- What an event does to a room. -/
theorem Room.exec_effect {room after : Room} (effect : room.exec event after) :
    Room.Effect reliable event room after := by
  cases event with
  | trackAdded publisherId track trackId => exact effect.2
  | _ => exact effect

/-- **Step lemma** for what the room records. -/
theorem Consistent.step (consistent : Consistent before) (step : LiveRoom.Step event before after) :
    Consistent after := by
  obtain ⟨effect, live⟩ := step
  refine ⟨Room.RecordsOthers.step consistent.recorded (Room.exec_effect effect), ?_⟩
  intro track member
  rw [live] at member
  cases event with
  | addPeer participantId =>
      obtain ⟨existing, all, changed⟩ := effect
      by_cases present : participantId ∈ before.room.peers
      · rw [changed, Room.addPeer, if_pos present]
        exact consistent.present track member
      · have spec := Room.addPeer_spec present all
        rw [← changed] at spec
        rw [spec.peers, Finmap.mem_insert]
        exact .inr (consistent.present track member)
  | removePeer participantId =>
      have changed : after.room = _ := effect
      obtain ⟨old, other⟩ := Finset.mem_filter.mp member
      by_cases present : participantId ∈ before.room.peers
      · rw [changed, Room.mem_removePeer present]
        exact ⟨other, consistent.present track old⟩
      · rw [changed, Room.removePeer, if_neg present]
        exact consistent.present track old
  | trackAdded publisherId added trackId =>
      obtain ⟨here, subscribers, made, -, all, changed⟩ := effect
      have spec := Room.trackAdded_spec publisherId added trackId made fun peerId member =>
        (Finset.mem_filter.mp (all.mem_iff.mp member)).2
      rw [← changed] at spec
      rw [spec.peers]
      rcases Finset.mem_insert.mp member with same | old
      · rw [same]
        exact here
      · exact consistent.present track old
  | trackRemoved publisherId trackId =>
      obtain ⟨subscribers, all, changed⟩ := effect
      have spec := Room.trackRemoved_spec before.room publisherId trackId subscribers
      rw [← changed] at spec
      rw [spec.peers]
      exact consistent.present track (Finset.mem_of_mem_erase member)

/-- A new peer keeps the mesh exactly if no track is live. -/
theorem mesh_addPeer {participantId : PeerId} (consistent : Consistent before)
    (mesh : Mesh before) (step : LiveRoom.Step (.addPeer participantId) before after) :
    Mesh after ↔ Harmless before (.addPeer participantId) := by
  obtain ⟨⟨existing, all, changed⟩, live⟩ := step
  by_cases present : participantId ∈ before.room.peers
  · have same : after.room = before.room := by
      rw [changed, Room.addPeer, if_pos present]
    refine iff_of_true ?_ fun absent => absurd present absent
    unfold Mesh
    rw [same, live]
    exact mesh
  · have spec := Room.addPeer_spec present all
    rw [← changed] at spec
    constructor
    · intro mesh _
      -- the new peer holds no relay of a track that was live before
      refine Finset.eq_empty_of_forall_notMem fun track member => ?_
      have publisher := consistent.present track member
      obtain ⟨session, relay, _, found, held, _⟩ := mesh track.1 track.2
        (by rw [spec.peers, Finmap.mem_insert]; exact .inr publisher) (by rw [live]; exact member)
        participantId (by rw [spec.peers, Finmap.mem_insert]; exact .inl rfl)
        (fun same => present (same ▸ publisher))
      rw [spec.peers, Finmap.lookup_insert] at found
      cases found
      rw [Finmap.lookup_empty] at held
      cases held
    · intro harmless publisherId trackId _ member
      rw [live, LiveRoom.liveAfter, harmless present] at member
      cases member

/-- A removed peer keeps the mesh exactly if no live track of another publisher, which others
should carry, goes with it. -/
theorem mesh_removePeer {participantId : PeerId} (consistent : Consistent before)
    (mesh : Mesh before) (step : LiveRoom.Step (.removePeer participantId) before after) :
    Mesh after ↔ Harmless before (.removePeer participantId) := by
  obtain ⟨changed, live⟩ := step
  by_cases present : participantId ∈ before.room.peers
  · have changed : after.room = (before.room.removePeer participantId).2 := changed
    constructor
    · intro mesh _ track member other removed peerId here
      by_contra further
      obtain ⟨away, apart⟩ := not_or.mp further
      have carried := mesh track.1 track.2
        (by rw [changed, Room.mem_removePeer present]
            exact ⟨other, consistent.present track member⟩)
        (by rw [live]; exact Finset.mem_filter.mpr ⟨member, other⟩)
        peerId (by rw [changed, Room.mem_removePeer present]; exact ⟨away, here⟩) apart
      rw [changed] at carried
      exact Room.not_mem_removePeer present removed carried.entered
    · intro harmless publisherId trackId publisher member peerId here apart
      rw [changed, Room.mem_removePeer present] at publisher here
      rw [live] at member
      obtain ⟨member, -⟩ := Finset.mem_filter.mp member
      rw [changed]
      refine (mesh publisherId trackId publisher.2 member peerId here.2 apart).removePeer present
        here.1 fun removed => ?_
      rcases harmless present (publisherId, trackId) member publisher.1 removed peerId here.2
        with gone | own
      · exact here.1 gone
      · exact apart own
  · have same : after.room = before.room := by
      rw [show after.room = _ from changed, Room.removePeer, if_neg present]
    refine iff_of_true ?_ fun here => absurd here present
    intro publisherId trackId publisher member
    rw [live] at member
    rw [same] at publisher ⊢
    exact mesh publisherId trackId publisher (Finset.mem_filter.mp member).1

/-- A new track keeps the mesh. -/
theorem mesh_trackAdded {publisherId : PeerId} {track : Track} {trackId : TrackId}
    (consistent : Consistent before) (mesh : Mesh before)
    (step : LiveRoom.Step (.trackAdded publisherId track trackId) before after) : Mesh after := by
  obtain ⟨⟨here, subscribers, made, sure, all, changed⟩, live⟩ := step
  have spec := Room.trackAdded_spec publisherId track trackId made fun peerId member =>
    ((consistent.mem_subscribers here).mp (all.mem_iff.mp member)).1
  rw [← changed] at spec
  intro otherId otherTrack publisher member peerId present apart
  rw [spec.peers] at publisher present
  rw [live] at member
  rcases Finset.mem_insert.mp member with same | old
  · cases same
    refine spec.reached peerId (all.mem_iff.mpr ?_) (sure peerId)
    exact (consistent.mem_subscribers here).mpr ⟨present, apart⟩
  · exact spec.kept _ _ (mesh otherId otherTrack publisher old peerId present apart)

/-- A removed track keeps the mesh exactly if no other live track, which others should carry,
goes with it. -/
theorem mesh_trackRemoved {publisherId : PeerId} {trackId : TrackId}
    (consistent : Consistent before) (mesh : Mesh before)
    (step : LiveRoom.Step (.trackRemoved publisherId trackId) before after) :
    Mesh after ↔ Harmless before (.trackRemoved publisherId trackId) := by
  obtain ⟨⟨subscribers, all, changed⟩, live⟩ := step
  have spec := Room.trackRemoved_spec before.room publisherId trackId subscribers
  rw [← changed] at spec
  constructor
  · intro mesh track member other same peerId here
    by_contra apart
    have carried := mesh track.1 track.2
      (by rw [spec.peers]; exact consistent.present track member)
      (by rw [live]; exact Finset.mem_erase.mpr ⟨other, member⟩)
      peerId (by rw [spec.peers]; exact here) apart
    have entered := carried.entered
    rw [same, spec.entries, Finmap.mem_erase] at entered
    exact entered.1 rfl
  · intro harmless otherId otherTrack publisher member peerId here apart
    rw [spec.peers] at publisher here
    rw [live] at member
    obtain ⟨other, member⟩ := Finset.mem_erase.mp member
    refine spec.kept _ _ (fun same => ?_)
      (mesh otherId otherTrack publisher member peerId here apart)
    exact apart (harmless (otherId, otherTrack) member other same peerId here)

/-- **Step lemma**: an event keeps the mesh exactly when it is harmless. -/
theorem mesh_step (consistent : Consistent before) (mesh : Mesh before)
    (step : LiveRoom.Step event before after) : Mesh after ↔ Harmless before event := by
  cases event with
  | addPeer participantId => exact mesh_addPeer consistent mesh step
  | removePeer participantId => exact mesh_removePeer consistent mesh step
  | trackAdded publisherId track trackId =>
      exact iff_of_true (mesh_trackAdded consistent mesh step) trivial
  | trackRemoved publisherId trackId => exact mesh_trackRemoved consistent mesh step

/-! ## Runs -/

/-- A run from a state: the events with the states they lead to. -/
def LiveRoom.RunFrom : LiveRoom → List (Event × LiveRoom) → Prop
  | _, [] => True
  | before, (event, after) :: rest => Step event before after ∧ RunFrom after rest

/-- Every event of the run is harmless in the state it meets. -/
def HarmlessFrom : LiveRoom → List (Event × LiveRoom) → Prop
  | _, [] => True
  | before, (event, after) :: rest => Harmless before event ∧ HarmlessFrom after rest

/-- Along a run the room stays a mesh exactly as long as no harmful event has come. -/
theorem mesh_runFrom (consistent : Consistent before) (mesh : Mesh before)
    {run : List (Event × LiveRoom)} (follows : before.RunFrom run) :
    (∀ visited ∈ run, Mesh visited.2) ↔ HarmlessFrom before run := by
  induction run generalizing before with
  | nil => simp [HarmlessFrom]
  | cons first run ih =>
      obtain ⟨event, after⟩ := first
      obtain ⟨step, follows⟩ := follows
      have kept := mesh_step consistent mesh step
      have later := fun mesh => ih (consistent.step step) mesh follows
      simp only [List.forall_mem_cons, HarmlessFrom]
      constructor
      · intro ⟨now, rest⟩
        exact ⟨kept.mp now, (later now).mp rest⟩
      · intro ⟨harmless, rest⟩
        have now := kept.mpr harmless
        exact ⟨now, (later now).mpr rest⟩

/-- **Forwarding is a full mesh in every state of a run from an empty room exactly
when every event of the run is harmless.** -/
theorem mesh_iff_harmless {run : List (Event × LiveRoom)} (follows : LiveRoom.empty.RunFrom run) :
    (∀ visited ∈ run, Mesh visited.2) ↔ HarmlessFrom .empty run :=
  mesh_runFrom consistent_empty mesh_empty follows

/-- One peer alone in its room. -/
def alone : LiveRoom := ⟨(Room.addPeer {} { participantId := "alice" } []).2, ∅⟩

/-- A second peer joins before anything is published. -/
def paired : LiveRoom := ⟨(alone.room.addPeer { participantId := "bob" } ["alice"]).2, ∅⟩

/-- The first peer publishes its camera to the second. -/
def watched : LiveRoom :=
  ⟨paired.room.onPublisherTrackAdded "alice" 0 "camera:0" ["bob"] fun _ => some 1,
    {("alice", "camera:0")}⟩

/-- Two peers that both join before one publishes. -/
def together : List (Event × LiveRoom) :=
  [(.addPeer "alice", alone), (.addPeer "bob", paired), (.trackAdded "alice" 0 "camera:0", watched)]

/-- Peers that start together are a full mesh. -/
theorem mesh_together :
    LiveRoom.empty.RunFrom together ∧ watched.room.Carries "alice|camera:0" "bob" ∧
      ∀ visited ∈ together, Mesh visited.2 := by
  have follows : LiveRoom.empty.RunFrom together := by
    refine ⟨⟨⟨[], by decide, rfl⟩, rfl⟩, ⟨⟨["alice"], by decide, rfl⟩, rfl⟩,
      ⟨⟨by decide, ["bob"], fun _ => some 1, fun _ => rfl, by decide, rfl⟩, rfl⟩, trivial⟩
  refine ⟨follows, ?_, (mesh_iff_harmless follows).mpr
      ⟨fun _ => rfl, fun _ => rfl, trivial, trivial⟩⟩
  exact ⟨_, 1, _, rfl, rfl, rfl, List.mem_cons_self⟩

/-- The first peer publishes its camera while it is alone. -/
def published : LiveRoom :=
  ⟨alone.room.onPublisherTrackAdded "alice" 0 "camera:0" [] fun _ => some 1,
    {("alice", "camera:0")}⟩

/-- The second peer joins after that. -/
def late : LiveRoom :=
  ⟨(published.room.addPeer { participantId := "bob" } ["alice"]).2, {("alice", "camera:0")}⟩

/-- **A late joiner misses the tracks that are already live.** -/
theorem late_joiner : LiveRoom.empty.RunFrom [(.addPeer "alice", alone),
      (.trackAdded "alice" 0 "camera:0", published), (.addPeer "bob", late)] ∧
    ¬ Mesh late := by
  constructor
  · exact ⟨⟨⟨[], by decide, rfl⟩, rfl⟩,
      ⟨⟨by decide, [], fun _ => some 1, fun _ => rfl, by decide, rfl⟩, rfl⟩,
      ⟨⟨["alice"], by decide, rfl⟩, rfl⟩, trivial⟩
  · intro mesh
    obtain ⟨session, relay, _, found, held, _⟩ :=
      mesh "alice" "camera:0" (by decide) (by decide) "bob" (by decide) (by decide)
    have joined : late.room.peers.lookup "bob" = some { participantId := "bob" } := rfl
    cases joined.symm.trans found
    rw [Finmap.lookup_empty] at held
    cases held

end Callifornia.Sfu
