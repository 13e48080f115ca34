import Callifornia.Concurrency.Transition
import Callifornia.Sfu.Forwarding
import Callifornia.Text.Fields

/-! # What a room keeps of the peers that are gone

Whatever relays the library refuses to make, no table of a room mentions a peer
that left it: subscribers, forward entries and relays are those of present peers.
-/

namespace Callifornia.Sfu

open FiniteMap Concurrency

/-- A library that may refuse any relay. -/
def fallible : Library := fun _ _ => True

/-- The participant ids are as the connector accepts them, and tracks are those of
present publishers. -/
def Regular : Event → Room → Prop
  | .addPeer participantId, _ => '|' ∉ participantId.toList
  | .removePeer _, _ => True
  | .trackAdded publisherId _ _, room => publisherId ∈ room.peers
  | .trackRemoved publisherId _, room => publisherId ∈ room.peers

instance : ∀ event room, Decidable (Regular event room)
  | .addPeer _, _ | .removePeer _, _ | .trackAdded .., _ | .trackRemoved .., _ => by
    unfold Regular
    infer_instance

/-- No table of the room mentions a peer that is gone. -/
structure NoDangling (room : Room) : Prop where
  subscribed : ∀ publisherId ∈ room.peers, ∀ peerId ∈ room.peers, publisherId ≠ peerId →
    peerId ∈ room.recorded publisherId
  publishers : ∀ publisherId ∈ room.subscribersByPublisher, publisherId ∈ room.peers
  subscribers : ∀ publisherId, ∀ peerId ∈ room.recorded publisherId, peerId ∈ room.peers
  entries : ∀ relayTrackId ∈ room.forwardByTrack, ∃ publisherId ∈ room.peers, ∃ trackId,
    relayTrackId = buildRelayTrackId publisherId trackId
  relays : ∀ peerId session, room.peers.lookup peerId = some session →
    ∀ relayTrackId ∈ session.relayTracks, relayTrackId ∈ room.forwardByTrack ∧
      ∃ publisherId ∈ room.peers, publisherId ≠ peerId ∧ ∃ trackId,
        relayTrackId = buildRelayTrackId publisherId trackId

/-- What every event keeps of a room. -/
structure Tidy (room : Room) : Prop where
  plain : ∀ peerId ∈ room.peers, '|' ∉ peerId.toList
  others : room.RecordsOthers
  publishers : ∀ publisherId ∈ room.subscribersByPublisher, publisherId ∈ room.peers
  entries : ∀ relayTrackId ∈ room.forwardByTrack, ∃ publisherId ∈ room.peers, ∃ trackId,
    relayTrackId = buildRelayTrackId publisherId trackId
  relays : ∀ peerId session, room.peers.lookup peerId = some session →
    ∀ relayTrackId ∈ session.relayTracks, relayTrackId ∈ room.forwardByTrack ∧
      ∃ publisherId ∈ room.peers, publisherId ≠ peerId ∧ ∃ trackId,
        relayTrackId = buildRelayTrackId publisherId trackId

theorem Tidy.noDangling {room : Room} (tidy : Tidy room) : NoDangling room where
  subscribed publisherId publisher peerId peer apart :=
    (tidy.others publisherId peerId).mpr ⟨publisher, peer, apart⟩
  publishers := tidy.publishers
  subscribers publisherId peerId member := ((tidy.others publisherId peerId).mp member).2.1
  entries := tidy.entries
  relays := tidy.relays

/-- A participant id without `|` is read off the relay id. -/
theorem publisher_eq {publisherId otherId : PeerId} (plain : '|' ∉ publisherId.toList)
    (plainOther : '|' ∉ otherId.toList) {trackId otherTrack : TrackId}
    (same : buildRelayTrackId publisherId trackId = buildRelayTrackId otherId otherTrack) :
    publisherId = otherId := by
  have lists := congrArg String.toList same
  rw [toList_buildRelayTrackId, toList_buildRelayTrackId] at lists
  exact String.toList_inj.mp (Text.append_separator_inj plain plainOther lists).1

namespace Room

/-! ## What the iterations leave -/

theorem keys_foldl_subscribeBoth (room : Room) (newId : PeerId) (existing : List PeerId)
    {publisherId : PeerId}
    (member : publisherId ∈
      (existing.foldl (subscribeBoth · newId) room).subscribersByPublisher) :
    publisherId ∈ room.subscribersByPublisher ∨ publisherId = newId ∨ publisherId ∈ existing := by
  induction existing generalizing room with
  | nil => exact .inl member
  | cons first existing ih =>
      rcases ih (room.subscribeBoth newId first) member with old | new | later
      · simp only [subscribeBoth, subscribe, Finmap.mem_insert] at old
        rcases old with new | here | old
        · exact .inr (.inl new)
        · exact .inr (.inr (here ▸ List.mem_cons_self))
        · exact .inl old
      · exact .inr (.inl new)
      · exact .inr (.inr (List.mem_cons_of_mem _ later))

/-- The tables after a track was relayed to some subscribers. -/
structure Relayed (room : Room) (relayTrackId : TrackId) (subscribers : List PeerId)
    (after : Room) : Prop where
  entries : ∀ query, query ∈ after.forwardByTrack ↔ query ∈ room.forwardByTrack
  relays : ∀ peerId session, after.peers.lookup peerId = some session →
    ∃ old, room.peers.lookup peerId = some old ∧ ∀ query ∈ session.relayTracks,
      query ∈ old.relayTracks ∨ (query = relayTrackId ∧ peerId ∈ subscribers)

theorem relayed_addRelay (room : Room) (relayTrackId : TrackId) (made : PeerId → Option Track)
    (subscriberId : PeerId) :
    room.Relayed relayTrackId [subscriberId] (room.addRelay relayTrackId made subscriberId) := by
  rcases addRelay_cases room relayTrackId made subscriberId with
    same | ⟨session, relay, grown, found, added, changed⟩
  · rw [same]
    exact ⟨fun _ => Iff.rfl, fun peerId session found => ⟨session, found, fun _ held => .inl held⟩⟩
  · rw [changed]
    refine ⟨fun query => mem_adjust, fun peerId later lookup => ?_⟩
    simp only [lookup_insert_if] at lookup
    by_cases same : peerId = subscriberId
    · subst same
      simp only [↓reduceIte, Option.some.injEq] at lookup
      subst lookup
      refine ⟨session, found, fun query held => ?_⟩
      rcases addRelayTrackIfMissing_eq added with ⟨_, rfl⟩ | ⟨_, _, rfl⟩
      · exact .inl held
      · rcases Finmap.mem_insert.mp held with new | old
        · exact .inr ⟨new, List.mem_cons_self⟩
        · exact .inl old
    · simp only [same, ↓reduceIte] at lookup
      exact ⟨later, lookup, fun _ held => .inl held⟩

theorem relayed_foldl (room : Room) (relayTrackId : TrackId) (made : PeerId → Option Track)
    (subscribers : List PeerId) :
    room.Relayed relayTrackId subscribers
      (subscribers.foldl (addRelay · relayTrackId made) room) := by
  induction subscribers generalizing room with
  | nil =>
      exact ⟨fun _ => Iff.rfl, fun peerId session found =>
        ⟨session, found, fun _ held => .inl held⟩⟩
  | cons first subscribers ih =>
      have now := relayed_addRelay room relayTrackId made first
      have later := ih (room.addRelay relayTrackId made first)
      refine ⟨fun query => (later.entries query).trans (now.entries query), ?_⟩
      intro peerId session found
      obtain ⟨middle, found, grown⟩ := later.relays peerId session found
      obtain ⟨old, found, first⟩ := now.relays peerId middle found
      refine ⟨old, found, fun query held => ?_⟩
      rcases grown query held with held | ⟨same, member⟩
      · rcases first query held with held | ⟨same, member⟩
        · exact .inl held
        · exact .inr ⟨same, List.mem_cons.mpr (.inl (List.mem_singleton.mp member))⟩
      · exact .inr ⟨same, List.mem_cons_of_mem _ member⟩

/-- The tables after a track was added. -/
theorem relayed_trackAdded (room : Room) (publisherId : PeerId) (track : Track)
    (trackId : TrackId) (subscribers : List PeerId) (made : PeerId → Option Track) :
    (∀ query, query ∈ (room.onPublisherTrackAdded publisherId track trackId subscribers
        made).forwardByTrack ↔
      query = buildRelayTrackId publisherId trackId ∨ query ∈ room.forwardByTrack) ∧
      ∀ peerId session, (room.onPublisherTrackAdded publisherId track trackId subscribers
          made).peers.lookup peerId = some session →
        ∃ old, room.peers.lookup peerId = some old ∧ ∀ query ∈ session.relayTracks,
          query ∈ old.relayTracks ∨
            (query = buildRelayTrackId publisherId trackId ∧ peerId ∈ subscribers) := by
  obtain ⟨entries, relays⟩ := relayed_foldl
    (room.emplaceEntry (buildRelayTrackId publisherId trackId) track)
    (buildRelayTrackId publisherId trackId) made subscribers
  rw [(emplaceEntry_peers room _ track).1] at relays
  refine ⟨fun query => (entries query).trans ?_, relays⟩
  unfold emplaceEntry
  split
  · rename_i present
    exact ⟨.inr, fun either => either.elim (fun same => same ▸ present) id⟩
  · exact Finmap.mem_insert

/-- The relays after a track was removed. -/
theorem relays_trackRemoved (room : Room) (publisherId : PeerId) (trackId : TrackId)
    (subscribers : List PeerId) (peerId : PeerId) :
    (room.onPublisherTrackRemoved publisherId trackId subscribers).peers.lookup peerId =
      if peerId ∈ subscribers then (room.peers.lookup peerId).map
        (·.removeRelayTrack (buildRelayTrackId publisherId trackId))
      else room.peers.lookup peerId := by
  have peers (room : Room) : (subscribers.foldl
      (removeRelay · (buildRelayTrackId publisherId trackId)) room).peers =
      subscribers.foldl (fun peers peerId =>
        adjust peers peerId (·.removeRelayTrack (buildRelayTrackId publisherId trackId)))
        room.peers := by
    induction subscribers generalizing room with
    | nil => rfl
    | cons first subscribers ih => exact ih _
  unfold onPublisherTrackRemoved
  rw [peers]
  refine lookup_foldl_adjust (fun session => ?_) subscribers room.peers peerId
  simp only [PeerSession.removeRelayTrack, PeerSession.mk.injEq, true_and]
  apply Finmap.ext_lookup
  intro query
  simp only [lookup_erase_if]
  split <;> rfl

end Room

/-! ## No event leaves a trace of a departed peer -/

namespace Tidy

variable {room : Room}

theorem addPeer (tidy : Tidy room) {participantId : PeerId} {existing : List PeerId}
    (plain : '|' ∉ participantId.toList) (absent : participantId ∉ room.peers)
    (all : Enumerates existing (room.peers.keys.erase participantId))
    (others : (room.addPeer { participantId } existing).2.RecordsOthers) :
    Tidy (room.addPeer { participantId } existing).2 := by
  have spec := Room.addPeer_spec absent all
  have kept (publisherId : PeerId) (member : publisherId ∈ room.peers) :
      publisherId ∈ (room.addPeer { participantId } existing).2.peers := by
    rw [spec.peers, Finmap.mem_insert]
    exact .inr member
  refine ⟨fun peerId member => ?_, others, fun publisherId member => ?_, ?_, ?_⟩
  · rw [spec.peers, Finmap.mem_insert] at member
    rcases member with same | old
    · exact same ▸ plain
    · exact tidy.plain peerId old
  · unfold Room.addPeer at member
    rw [if_neg absent] at member
    rcases Room.keys_foldl_subscribeBoth _ _ _ member with old | same | other
    · exact kept publisherId (tidy.publishers publisherId old)
    · rw [spec.peers, Finmap.mem_insert]
      exact .inl same
    · rw [all.mem_iff, Finset.mem_erase, Finmap.mem_keys] at other
      exact kept publisherId other.2
  · rw [spec.entries]
    intro relayTrackId member
    obtain ⟨publisherId, present, trackId, same⟩ := tidy.entries relayTrackId member
    exact ⟨publisherId, kept publisherId present, trackId, same⟩
  · rw [spec.entries]
    intro peerId session found relayTrackId held
    rw [spec.peers, lookup_insert_if] at found
    by_cases new : peerId = participantId
    · rw [if_pos new] at found
      cases found
      exact absurd held Finmap.notMem_empty
    · rw [if_neg new] at found
      obtain ⟨entered, publisherId, present, apart, trackId, same⟩ :=
        tidy.relays peerId session found relayTrackId held
      exact ⟨entered, publisherId, kept publisherId present, apart, trackId, same⟩

theorem removePeer (tidy : Tidy room) {participantId : PeerId}
    (present : participantId ∈ room.peers)
    (others : (room.removePeer participantId).2.RecordsOthers) :
    Tidy (room.removePeer participantId).2 := by
  -- what is not removed belongs to a publisher that stays
  have stays (relayTrackId : TrackId) (entered : relayTrackId ∈ room.forwardByTrack)
      (kept : relayTrackId ∉ room.toRemoveTrackIds participantId) {publisherId : PeerId}
      {trackId : TrackId} (same : relayTrackId = buildRelayTrackId publisherId trackId) :
      publisherId ≠ participantId := by
    rintro rfl
    apply kept
    refine Finset.mem_filter.mpr ⟨Finmap.mem_keys.mpr entered, ?_⟩
    rw [same]
    exact hasPrefix_own _ _
  have peers (peerId : PeerId) : peerId ∈ (room.removePeer participantId).2.peers ↔
      peerId ≠ participantId ∧ peerId ∈ room.peers := Room.mem_removePeer present
  refine ⟨fun peerId member => tidy.plain peerId ((peers peerId).mp member).2, others,
    fun publisherId member => ?_, fun relayTrackId member => ?_, ?_⟩
  · simp only [Room.removePeer, present, ↓reduceIte, mem_mapValues, Finmap.mem_erase] at member
    exact (peers publisherId).mpr ⟨member.1, tidy.publishers publisherId member.2⟩
  · simp only [Room.removePeer, present, ↓reduceIte] at member
    obtain ⟨entry, found⟩ := Finmap.mem_iff.mp member
    obtain ⟨found, kept⟩ := lookup_filter_eq_some.mp found
    have entered := Finmap.mem_of_lookup_eq_some found
    obtain ⟨publisherId, publisher, trackId, same⟩ := tidy.entries relayTrackId entered
    exact ⟨publisherId, (peers publisherId).mpr ⟨stays relayTrackId entered kept same, publisher⟩,
      trackId, same⟩
  · intro peerId session found relayTrackId held
    simp only [Room.removePeer, present, ↓reduceIte, lookup_mapValues, lookup_erase_if] at found
    obtain ⟨old, before, rfl⟩ := Option.map_eq_some_iff.mp found
    by_cases gone : peerId = participantId
    · rw [if_pos gone] at before
      cases before
    · rw [if_neg gone] at before
      obtain ⟨relay, held⟩ := Finmap.mem_iff.mp held
      obtain ⟨held, kept⟩ := lookup_filter_eq_some.mp held
      obtain ⟨entered, publisherId, publisher, apart, trackId, same⟩ :=
        tidy.relays peerId old before relayTrackId (Finmap.mem_of_lookup_eq_some held)
      refine ⟨?_, publisherId, (peers publisherId).mpr
        ⟨stays relayTrackId entered kept same, publisher⟩, apart, trackId, same⟩
      obtain ⟨entry, listed⟩ := Finmap.mem_iff.mp entered
      simp only [Room.removePeer, present, ↓reduceIte]
      exact Finmap.mem_of_lookup_eq_some (lookup_filter_eq_some.mpr ⟨listed, kept⟩)

theorem trackAdded (tidy : Tidy room) {publisherId : PeerId} {track : Track} {trackId : TrackId}
    {subscribers : List PeerId} {made : PeerId → Option Track}
    (present : publisherId ∈ room.peers)
    (all : Enumerates subscribers (room.subscribers publisherId))
    (others : (room.onPublisherTrackAdded publisherId track trackId subscribers
      made).RecordsOthers) :
    Tidy (room.onPublisherTrackAdded publisherId track trackId subscribers made) := by
  have spec := Room.trackAdded_spec publisherId track trackId made fun peerId member =>
    (Finset.mem_filter.mp (all.mem_iff.mp member)).2
  obtain ⟨entries, relays⟩ :=
    Room.relayed_trackAdded room publisherId track trackId subscribers made
  refine ⟨fun peerId member => tidy.plain peerId ((spec.peers peerId).mp member), others,
    fun otherId member => ?_, fun relayTrackId member => ?_, ?_⟩
  · rw [spec.records] at member
    exact (spec.peers otherId).mpr (tidy.publishers otherId member)
  · rcases (entries relayTrackId).mp member with same | old
    · exact ⟨publisherId, (spec.peers publisherId).mpr present, trackId, same⟩
    · obtain ⟨otherId, publisher, otherTrack, same⟩ := tidy.entries relayTrackId old
      exact ⟨otherId, (spec.peers otherId).mpr publisher, otherTrack, same⟩
  · intro peerId session found relayTrackId held
    obtain ⟨old, found, grown⟩ := relays peerId session found
    rcases grown relayTrackId held with held | ⟨same, member⟩
    · obtain ⟨entered, otherId, publisher, apart, otherTrack, same⟩ :=
        tidy.relays peerId old found relayTrackId held
      exact ⟨(entries relayTrackId).mpr (.inr entered), otherId,
        (spec.peers otherId).mpr publisher, apart, otherTrack, same⟩
    · have recorded := (Finset.mem_filter.mp (all.mem_iff.mp member)).1
      exact ⟨(entries relayTrackId).mpr (.inl same), publisherId,
        (spec.peers publisherId).mpr present, ((tidy.others publisherId peerId).mp recorded).2.2,
        trackId, same⟩

theorem trackRemoved (tidy : Tidy room) {publisherId : PeerId} {trackId : TrackId}
    {subscribers : List PeerId} (present : publisherId ∈ room.peers)
    (all : Enumerates subscribers (room.subscribers publisherId))
    (others : (room.onPublisherTrackRemoved publisherId trackId subscribers).RecordsOthers) :
    Tidy (room.onPublisherTrackRemoved publisherId trackId subscribers) := by
  have spec := Room.trackRemoved_spec room publisherId trackId subscribers
  refine ⟨fun peerId member => tidy.plain peerId ((spec.peers peerId).mp member), others,
    fun otherId member => ?_, fun relayTrackId member => ?_, ?_⟩
  · rw [spec.records] at member
    exact (spec.peers otherId).mpr (tidy.publishers otherId member)
  · rw [spec.entries, Finmap.mem_erase] at member
    obtain ⟨otherId, publisher, otherTrack, same⟩ := tidy.entries relayTrackId member.2
    exact ⟨otherId, (spec.peers otherId).mpr publisher, otherTrack, same⟩
  · intro peerId session found relayTrackId held
    rw [Room.relays_trackRemoved] at found
    -- a relay that is left has another id: every other peer drops this one
    have before : ∃ old, room.peers.lookup peerId = some old ∧ relayTrackId ∈ old.relayTracks ∧
        (relayTrackId = buildRelayTrackId publisherId trackId → peerId ∉ subscribers) := by
      by_cases subscriber : peerId ∈ subscribers
      · rw [if_pos subscriber] at found
        obtain ⟨old, before, rfl⟩ := Option.map_eq_some_iff.mp found
        simp only [PeerSession.removeRelayTrack, Finmap.mem_erase] at held
        exact ⟨old, before, held.2, fun same => absurd same held.1⟩
      · rw [if_neg subscriber] at found
        exact ⟨session, found, held, fun _ => subscriber⟩
    obtain ⟨old, before, held, dropped⟩ := before
    obtain ⟨entered, otherId, publisher, apart, otherTrack, same⟩ :=
      tidy.relays peerId old before relayTrackId held
    have other : relayTrackId ≠ buildRelayTrackId publisherId trackId := by
      intro removed
      have owner : otherId = publisherId :=
        publisher_eq (tidy.plain otherId publisher) (tidy.plain publisherId present)
          (same.symm.trans removed)
      subst owner
      apply dropped removed
      have peer := Finmap.mem_of_lookup_eq_some before
      refine all.mem_iff.mpr (Finset.mem_filter.mpr ⟨?_, peer⟩)
      exact (tidy.others otherId peerId).mpr ⟨present, peer, apart⟩
    refine ⟨?_, otherId, (spec.peers otherId).mpr publisher, apart, otherTrack, same⟩
    rw [spec.entries, Finmap.mem_erase]
    exact ⟨other, entered⟩

theorem empty : Tidy {} where
  plain _ member := absurd member Finmap.notMem_empty
  others publisherId peerId := by
    simp [Room.recorded, Finmap.lookup_empty, Finmap.notMem_empty]
  publishers _ member := absurd member Finmap.notMem_empty
  entries _ member := absurd member Finmap.notMem_empty
  relays peerId _ found := by
    rw [Finmap.lookup_empty] at found
    cases found

/-- **Step lemma.** -/
theorem step {library : Library} {event : Event} {after : Room} (tidy : Tidy room)
    (regular : Regular event room) (effect : Room.Effect library event room after) :
    Tidy after := by
  have others := tidy.others.step effect
  cases event with
  | addPeer participantId =>
      obtain ⟨existing, all, rfl⟩ := effect
      by_cases present : participantId ∈ room.peers
      · rw [Room.addPeer, if_pos present]
        exact tidy
      · exact tidy.addPeer regular present all others
  | removePeer participantId =>
      have changed : after = _ := effect
      subst changed
      by_cases present : participantId ∈ room.peers
      · exact tidy.removePeer present others
      · rw [Room.removePeer, if_neg present]
        exact tidy
  | trackAdded publisherId track trackId =>
      obtain ⟨subscribers, made, -, all, rfl⟩ := effect
      exact tidy.trackAdded regular all others
  | trackRemoved publisherId trackId =>
      obtain ⟨subscribers, all, rfl⟩ := effect
      exact tidy.trackRemoved regular all others

end Tidy

/-- An event of a room whose library may refuse relays. -/
def RegularStep (event : Event) (before after : Room) : Prop :=
  Regular event before ∧ Room.Effect fallible event before after

/-- **No forwarding state dangles**, whatever peers join and leave, whatever tracks
come and go, and whatever relays the library refuses. -/
theorem noDangling_of_runs {events : List Event} {room : Room}
    (run : Runs RegularStep {} events room) : NoDangling room :=
  (run.invariant (fun _ _ _ tidy step => tidy.step step.1 step.2) Tidy.empty).noDangling

/-- A publisher whose relay is refused leaves and joins again. -/
theorem noDangling_rejoined : ∃ room, Runs RegularStep {}
      [.addPeer "alice", .addPeer "bob", .trackAdded "alice" 0 "camera:0", .removePeer "alice",
        .addPeer "alice"] room ∧ NoDangling room := by
  have run : ∃ room, Runs RegularStep {} [.addPeer "alice", .addPeer "bob",
      .trackAdded "alice" 0 "camera:0", .removePeer "alice", .addPeer "alice"] room := by
    refine ⟨_, .cons ⟨by decide, [], by decide, rfl⟩ <|
      .cons ⟨by decide, ["alice"], by decide, rfl⟩ <|
      .cons ⟨by decide, ["bob"], fun _ => none, trivial, by decide, rfl⟩ <|
      .cons ⟨trivial, rfl⟩ <| .cons ⟨by decide, ["bob"], by decide, rfl⟩ .nil⟩
  obtain ⟨room, run⟩ := run
  exact ⟨room, run, noDangling_of_runs run⟩

end Callifornia.Sfu
