import Callifornia.Sfu.Dangling

/-! # How often a message reaches a subscriber

The relay of a subscriber is found again when its track is added again, but it is
listed once for each time the track is added. A message reaches a subscriber once
while no track is added again for a subscriber that carries it.
-/

namespace Callifornia.Sfu

open FiniteMap Concurrency

/-! ## Who holds what -/

namespace Room

variable (room : Room)

/-- A peer holds a track among its relays. -/
def Holds (peerId : PeerId) (track : Track) : Prop :=
  ∃ session relayTrackId, room.peers.lookup peerId = some session ∧
    session.relayTracks.lookup relayTrackId = some track

/-- A forward entry lists a track. -/
def Lists (track : Track) : Prop :=
  ∃ relayTrackId entry, room.forwardByTrack.lookup relayTrackId = some entry ∧
    track ∈ entry.relayTracks

/-- The relays a message of a track is sent to: the handler drops those that have
expired and sends to each of the others. -/
def receivers (live : Track → Bool) (relayTrackId : TrackId) : List Track :=
  match room.forwardByTrack.lookup relayTrackId with
  | some entry => entry.relayTracks.filter live
  | none => []

end Room

/-- A library that makes a relay on the subscriber's own connection: the track is one
the subscriber holds already, or a new one. It may refuse. -/
def owning : Library := fun room made =>
  (∀ peerId track, made peerId = some track →
    room.Holds peerId track ∨ ((∀ otherId, ¬ room.Holds otherId track) ∧ ¬ room.Lists track)) ∧
    ∀ peerId otherId track, made peerId = some track → made otherId = some track →
      peerId = otherId

/-- A track is added for subscribers that do not carry it yet. -/
def Unrelayed : Event → Room → Prop
  | .trackAdded publisherId _ trackId, room => ∀ peerId ∈ room.subscribers publisherId,
      ¬ room.Carries (buildRelayTrackId publisherId trackId) peerId
  | _, _ => True

/-- Every relay belongs to one peer, which holds it under each id that lists it, and
is listed once. -/
structure Single (room : Room) : Prop where
  owned : ∀ peerId otherId track, room.Holds peerId track → room.Holds otherId track →
    peerId = otherId
  filed : ∀ relayTrackId entry track, room.forwardByTrack.lookup relayTrackId = some entry →
    track ∈ entry.relayTracks → ∀ peerId session, room.peers.lookup peerId = some session →
    room.Holds peerId track → session.relayTracks.lookup relayTrackId = some track
  nodup : ∀ relayTrackId entry, room.forwardByTrack.lookup relayTrackId = some entry →
    entry.relayTracks.Nodup

namespace Single

variable {room after : Room}

/-- Peers and entries may lose relays, as long as both lose the same ids. -/
theorem shrink (single : Single room)
    (holds : ∀ peerId track, after.Holds peerId track → room.Holds peerId track)
    (entries : ∀ relayTrackId entry, after.forwardByTrack.lookup relayTrackId = some entry →
      room.forwardByTrack.lookup relayTrackId = some entry)
    (keeps : ∀ relayTrackId peerId session, relayTrackId ∈ after.forwardByTrack →
      after.peers.lookup peerId = some session →
      (∀ track, ¬ after.Holds peerId track) ∨
        ∃ old, room.peers.lookup peerId = some old ∧
          session.relayTracks.lookup relayTrackId = old.relayTracks.lookup relayTrackId) :
    Single after := by
  refine ⟨fun peerId otherId track first second =>
    single.owned peerId otherId track (holds _ _ first) (holds _ _ second), ?_,
    fun relayTrackId entry found => single.nodup relayTrackId entry (entries _ _ found)⟩
  intro relayTrackId entry track listed member peerId session found held
  rcases keeps relayTrackId peerId session (Finmap.mem_of_lookup_eq_some listed) found with
    none | ⟨old, before, same⟩
  · exact absurd held (none track)
  · rw [same]
    exact single.filed relayTrackId entry track (entries _ _ listed) member peerId old before
      (holds _ _ held)

theorem empty : Single {} where
  owned _ _ _ held := by
    obtain ⟨_, _, found, _⟩ := held
    rw [Finmap.lookup_empty] at found
    cases found
  filed _ _ _ found := by
    rw [Finmap.lookup_empty] at found
    cases found
  nodup _ _ found := by
    rw [Finmap.lookup_empty] at found
    cases found

theorem addPeer (single : Single room) {participantId : PeerId} {existing : List PeerId}
    (absent : participantId ∉ room.peers)
    (all : Enumerates existing (room.peers.keys.erase participantId)) :
    Single (room.addPeer { participantId } existing).2 := by
  have spec := Room.addPeer_spec absent all
  have lookup (peerId : PeerId) : (room.addPeer { participantId } existing).2.peers.lookup peerId =
      if peerId = participantId then some { participantId } else room.peers.lookup peerId := by
    rw [spec.peers, lookup_insert_if]
  have bare (track : Track) :
      ¬ (room.addPeer { participantId } existing).2.Holds participantId track := by
    intro ⟨session, relayTrackId, found, held⟩
    rw [lookup, if_pos rfl] at found
    cases found
    rw [Finmap.lookup_empty] at held
    cases held
  apply single.shrink
  · intro peerId track held
    by_cases new : peerId = participantId
    · exact absurd held (new ▸ bare track)
    · obtain ⟨session, relayTrackId, found, held⟩ := held
      rw [lookup, if_neg new] at found
      exact ⟨session, relayTrackId, found, held⟩
  · intro relayTrackId entry found
    rwa [spec.entries] at found
  · intro relayTrackId peerId session _ found
    by_cases new : peerId = participantId
    · exact .inl (new ▸ bare)
    · rw [lookup, if_neg new] at found
      exact .inr ⟨session, found, rfl⟩

theorem removePeer (single : Single room) {participantId : PeerId}
    (present : participantId ∈ room.peers) : Single (room.removePeer participantId).2 := by
  have lookup (peerId : PeerId) (session : PeerSession)
      (found : (room.removePeer participantId).2.peers.lookup peerId = some session) :
      ∃ old, room.peers.lookup peerId = some old ∧
        session = Room.removeRelays (room.toRemoveTrackIds participantId) old := by
    simp only [Room.removePeer, present, ↓reduceIte, lookup_mapValues, lookup_erase_if] at found
    obtain ⟨old, before, rfl⟩ := Option.map_eq_some_iff.mp found
    by_cases gone : peerId = participantId
    · rw [if_pos gone] at before
      cases before
    · rw [if_neg gone] at before
      exact ⟨old, before, rfl⟩
  have entries (relayTrackId : TrackId) (entry : ForwardEntry)
      (found : (room.removePeer participantId).2.forwardByTrack.lookup relayTrackId = some entry) :
      room.forwardByTrack.lookup relayTrackId = some entry ∧
        relayTrackId ∉ room.toRemoveTrackIds participantId := by
    simp only [Room.removePeer, present, ↓reduceIte] at found
    exact lookup_filter_eq_some.mp found
  apply single.shrink
  · rintro peerId track ⟨session, relayTrackId, found, held⟩
    obtain ⟨old, before, rfl⟩ := lookup peerId session found
    exact ⟨old, relayTrackId, before, (lookup_filter_eq_some.mp held).1⟩
  · intro relayTrackId entry found
    exact (entries relayTrackId entry found).1
  · intro relayTrackId peerId session entered found
    obtain ⟨old, before, rfl⟩ := lookup peerId session found
    obtain ⟨entry, listed⟩ := Finmap.mem_iff.mp entered
    refine .inr ⟨old, before, ?_⟩
    rw [Room.removeRelays, lookup_filter]
    simp only [(entries relayTrackId entry listed).2, not_false_eq_true, decide_true]
    cases old.relayTracks.lookup relayTrackId <;> rfl

theorem trackRemoved (single : Single room) {publisherId : PeerId} {trackId : TrackId}
    {subscribers : List PeerId} :
    Single (room.onPublisherTrackRemoved publisherId trackId subscribers) := by
  have spec := Room.trackRemoved_spec room publisherId trackId subscribers
  have lookup (peerId : PeerId) (session : PeerSession)
      (found : (room.onPublisherTrackRemoved publisherId trackId subscribers).peers.lookup peerId =
        some session) :
      ∃ old, room.peers.lookup peerId = some old ∧ ∀ query,
        session.relayTracks.lookup query = old.relayTracks.lookup query ∨
          (query = buildRelayTrackId publisherId trackId ∧
            session.relayTracks.lookup query = none) := by
    rw [Room.relays_trackRemoved] at found
    by_cases subscriber : peerId ∈ subscribers
    · rw [if_pos subscriber] at found
      obtain ⟨old, before, rfl⟩ := Option.map_eq_some_iff.mp found
      refine ⟨old, before, fun query => ?_⟩
      simp only [PeerSession.removeRelayTrack, lookup_erase_if]
      by_cases same : query = buildRelayTrackId publisherId trackId
      · simp [same]
      · simp [same]
    · rw [if_neg subscriber] at found
      exact ⟨session, found, fun query => .inl rfl⟩
  apply single.shrink
  · rintro peerId track ⟨session, relayTrackId, found, held⟩
    obtain ⟨old, before, same⟩ := lookup peerId session found
    rcases same relayTrackId with same | ⟨_, none⟩
    · exact ⟨old, relayTrackId, before, same ▸ held⟩
    · rw [none] at held
      cases held
  · intro relayTrackId entry found
    rw [spec.entries, lookup_erase_if] at found
    split at found
    · cases found
    · exact found
  · intro relayTrackId peerId session entered found
    obtain ⟨old, before, same⟩ := lookup peerId session found
    rw [spec.entries, Finmap.mem_erase] at entered
    rcases same relayTrackId with same | ⟨removed, _⟩
    · exact .inr ⟨old, before, same⟩
    · exact absurd removed entered.1

end Single

/-- A relay may still be made for a subscriber: it carries none under this id, and the
library would give it a track of its own. -/
def Room.Free (room : Room) (relayTrackId : TrackId) (made : PeerId → Option Track)
    (peerId : PeerId) : Prop :=
  ¬ room.Carries relayTrackId peerId ∧ ∀ track, made peerId = some track →
    room.Holds peerId track ∨ ((∀ otherId, ¬ room.Holds otherId track) ∧ ¬ room.Lists track)

/-- What relaying a track to a subscriber adds: one track, under one id. -/
structure Room.Gains (room : Room) (relayTrackId : TrackId) (subscriberId : PeerId)
    (relay : Track) (after : Room) : Prop where
  holds : ∀ peerId track, after.Holds peerId track ↔
    room.Holds peerId track ∨ (peerId = subscriberId ∧ track = relay)
  lists : ∀ track, after.Lists track → room.Lists track ∨ track = relay
  entries : ∀ query entry, after.forwardByTrack.lookup query = some entry →
    ∃ old, room.forwardByTrack.lookup query = some old ∧ entry.relayTracks =
      if query = relayTrackId then old.relayTracks ++ [relay] else old.relayTracks
  others : ∀ peerId, peerId ≠ subscriberId →
    after.peers.lookup peerId = room.peers.lookup peerId
  filed : ∃ old session, room.peers.lookup subscriberId = some old ∧
    after.peers.lookup subscriberId = some session ∧
    session.relayTracks.lookup relayTrackId = some relay ∧
    ∀ query, query ≠ relayTrackId →
      session.relayTracks.lookup query = old.relayTracks.lookup query

/-- A session that was given a relay carries the old ones and the new one. -/
theorem Room.holds_addRelay {room : Room} {relayTrackId : TrackId} {subscriberId : PeerId}
    {session grown : PeerSession} {answer : Option Track} {relay : Track}
    (found : room.peers.lookup subscriberId = some session)
    (added : session.addRelayTrackIfMissing relayTrackId answer = (some relay, grown))
    (entries : Map TrackId ForwardEntry) (peerId : PeerId) (track : Track) :
    Room.Holds { room with
        peers := room.peers.insert subscriberId grown
        forwardByTrack := entries } peerId track ↔
      room.Holds peerId track ∨ (peerId = subscriberId ∧ track = relay) := by
  have filed := Room.addRelayTrackIfMissing_lookup added
  by_cases same : peerId = subscriberId
  · subst same
    constructor
    · rintro ⟨later, query, lookup, own⟩
      simp only [Finmap.lookup_insert, Option.some.injEq] at lookup
      subst lookup
      by_cases apart : query = relayTrackId
      · rw [apart, filed] at own
        cases own
        exact .inr ⟨rfl, rfl⟩
      · rw [Room.addRelayTrackIfMissing_apart added apart] at own
        exact .inl ⟨session, query, found, own⟩
    · rintro (⟨old, query, lookup, own⟩ | ⟨_, rfl⟩)
      · cases found.symm.trans lookup
        exact ⟨grown, query, Finmap.lookup_insert _, Room.addRelayTrackIfMissing_keeps added own⟩
      · exact ⟨grown, relayTrackId, Finmap.lookup_insert _, filed⟩
  · have kept : (room.peers.insert subscriberId grown).lookup peerId = room.peers.lookup peerId :=
      Finmap.lookup_insert_of_ne _ same
    simp only [Room.Holds, kept, same, false_and, or_false]

/-- The entry of a relayed track lists one track more; the others list what they listed. -/
theorem Room.listed_addRelay {entries : Map TrackId ForwardEntry} {relayTrackId query : TrackId}
    {relay : Track} {entry : ForwardEntry}
    (listed : (adjust entries relayTrackId fun entry =>
      { entry with relayTracks := entry.relayTracks ++ [relay] }).lookup query = some entry) :
    ∃ old, entries.lookup query = some old ∧ entry.relayTracks =
      if query = relayTrackId then old.relayTracks ++ [relay] else old.relayTracks := by
  rw [lookup_adjust] at listed
  by_cases same : query = relayTrackId
  · rw [if_pos same] at listed
    obtain ⟨old, before, rfl⟩ := Option.map_eq_some_iff.mp listed
    exact ⟨old, same ▸ before, (if_pos same).symm⟩
  · rw [if_neg same] at listed
    exact ⟨entry, listed, (if_neg same).symm⟩

namespace Single

variable {room : Room}

theorem gains_addRelay {relayTrackId : TrackId} {made : PeerId → Option Track}
    {subscriberId : PeerId} :
    room.addRelay relayTrackId made subscriberId = room ∨
      ∃ relay, room.Gains relayTrackId subscriberId relay
          (room.addRelay relayTrackId made subscriberId) ∧
        ∃ session, room.peers.lookup subscriberId = some session ∧
          (session.relayTracks.lookup relayTrackId = some relay ∨
            (session.relayTracks.lookup relayTrackId = none ∧ made subscriberId = some relay)) := by
  rcases Room.addRelay_cases room relayTrackId made subscriberId with
    same | ⟨session, relay, grown, found, added, changed⟩
  · exact .inl same
  · refine .inr ⟨relay, ?_, session, found, ?_⟩
    · rw [changed]
      refine ⟨Room.holds_addRelay found added _, ?_, fun query entry => Room.listed_addRelay, ?_,
        session, grown, found, Finmap.lookup_insert _, Room.addRelayTrackIfMissing_lookup added,
        fun query => Room.addRelayTrackIfMissing_apart added⟩
      · intro track ⟨query, entry, listed, member⟩
        obtain ⟨old, before, list⟩ := Room.listed_addRelay listed
        rw [list] at member
        split at member
        · rcases List.mem_append.mp member with member | new
          · exact .inl ⟨query, old, before, member⟩
          · exact .inr (List.mem_singleton.mp new)
        · exact .inl ⟨query, old, before, member⟩
      · intro peerId apart
        simp only [lookup_insert_if, apart, ↓reduceIte]
    · rcases Room.addRelayTrackIfMissing_eq added with ⟨own, _⟩ | ⟨missing, answer, _⟩
      · exact .inl own
      · exact .inr ⟨missing, answer⟩

/-- A track that is only held by this subscriber, and not listed yet, may be listed. -/
theorem gains (single : Single room) {relayTrackId : TrackId} {subscriberId : PeerId}
    {relay : Track} {after : Room} (gains : room.Gains relayTrackId subscriberId relay after)
    (own : ∀ peerId, room.Holds peerId relay → peerId = subscriberId)
    (unlisted : ∀ old, room.forwardByTrack.lookup relayTrackId = some old →
      relay ∉ old.relayTracks)
    (filed : ∀ query old session, room.forwardByTrack.lookup query = some old →
      relay ∈ old.relayTracks → room.peers.lookup subscriberId = some session →
      session.relayTracks.lookup query = some relay)
    (before : ∀ old track session, room.forwardByTrack.lookup relayTrackId = some old →
      track ∈ old.relayTracks → room.Holds subscriberId track →
      room.peers.lookup subscriberId = some session → track = relay) :
    Single after := by
  refine ⟨fun peerId otherId track first second => ?_, ?_, fun query entry listed => ?_⟩
  · rcases (gains.holds peerId track).mp first with old | ⟨same, new⟩
    · rcases (gains.holds otherId track).mp second with other | ⟨same', new'⟩
      · exact single.owned peerId otherId track old other
      · exact (own peerId (new' ▸ old)).trans same'.symm
    · rcases (gains.holds otherId track).mp second with other | ⟨same', new'⟩
      · exact same.trans (own otherId (new ▸ other)).symm
      · exact same.trans same'.symm
  · intro query entry track listed member peerId session found held
    obtain ⟨old, listedBefore, list⟩ := gains.entries query entry listed
    by_cases subscriber : peerId = subscriberId
    · subst subscriber
      obtain ⟨session₀, session₁, found₀, found₁, relayed, apart⟩ := gains.filed
      cases found₁.symm.trans found
      by_cases same : query = relayTrackId
      · subst same
        rw [if_pos rfl] at list
        rw [list] at member
        rcases List.mem_append.mp member with member | new
        · rcases (gains.holds peerId track).mp held with heldBefore | ⟨_, rfl⟩
          · rw [before old track session₀ listedBefore member heldBefore found₀]
            exact relayed
          · exact relayed
        · rw [List.mem_singleton.mp new]
          exact relayed
      · rw [if_neg same] at list
        rw [list] at member
        rw [apart query same]
        rcases (gains.holds peerId track).mp held with heldBefore | ⟨_, rfl⟩
        · exact single.filed query old track listedBefore member peerId session₀ found₀ heldBefore
        · exact filed query old session₀ listedBefore member found₀
    · rw [gains.others peerId subscriber] at found
      rcases (gains.holds peerId track).mp held with heldBefore | ⟨same, _⟩
      · have member : track ∈ old.relayTracks := by
          rw [list] at member
          split at member
          · rcases List.mem_append.mp member with member | new
            · exact member
            · rw [List.mem_singleton.mp new] at heldBefore
              exact absurd (own peerId heldBefore) subscriber
          · exact member
        exact single.filed query old track listedBefore member peerId session found heldBefore
      · exact absurd same subscriber
  · obtain ⟨old, listedBefore, list⟩ := gains.entries query entry listed
    have once := single.nodup query old listedBefore
    rw [list]
    split
    · rename_i same
      subst same
      rw [List.nodup_append]
      refine ⟨once, List.nodup_singleton relay, ?_⟩
      rintro track member _ new rfl
      rw [List.mem_singleton.mp new] at member
      exact unlisted old listedBefore member
    · exact once

/-- Relaying a track to a subscriber that is free for it. -/
theorem addRelay (single : Single room) {relayTrackId : TrackId} {made : PeerId → Option Track}
    {subscriberId : PeerId} (free : room.Free relayTrackId made subscriberId) :
    Single (room.addRelay relayTrackId made subscriberId) := by
  obtain ⟨bare, answers⟩ := free
  rcases @gains_addRelay room relayTrackId made subscriberId with
    same | ⟨relay, gains, session, found, source⟩
  · rw [same]
    exact single
  · rcases source with own | ⟨missing, answer⟩
    · -- the relay is there: it is listed under this id for the first time
      have held : room.Holds subscriberId relay := ⟨session, relayTrackId, found, own⟩
      apply single.gains gains
      · exact fun peerId other => single.owned peerId subscriberId relay other held
      · exact fun old listed member => bare ⟨session, relay, old, found, own, listed, member⟩
      · intro query old session' listed member found'
        exact single.filed query old relay listed member subscriberId session' found' held
      · intro old track session' listed member other found'
        have here := single.filed relayTrackId old track listed member subscriberId session' found'
          other
        cases found.symm.trans found'
        rw [own] at here
        cases here
        rfl
    · -- the relay is made: an entry that lists it already is one of this subscriber's
      have vacant (old : ForwardEntry) (track : Track)
          (listed : room.forwardByTrack.lookup relayTrackId = some old)
          (member : track ∈ old.relayTracks) (held : room.Holds subscriberId track) : False := by
        have here := single.filed relayTrackId old track listed member subscriberId session found
          held
        rw [missing] at here
        cases here
      rcases answers relay answer with held | ⟨unheld, unlisted⟩
      · apply single.gains gains
        · exact fun peerId other => single.owned peerId subscriberId relay other held
        · exact fun old listed member => vacant old relay listed member held
        · intro query old session' listed member found'
          exact single.filed query old relay listed member subscriberId session' found' held
        · exact fun old track _ listed member other _ => (vacant old track listed member other).elim
      · apply single.gains gains
        · exact fun peerId other => absurd other (unheld peerId)
        · exact fun old listed member => unlisted ⟨relayTrackId, old, listed, member⟩
        · exact fun query old _ listed member _ => absurd ⟨query, old, listed, member⟩ unlisted
        · exact fun old track _ listed member other _ => (vacant old track listed member other).elim

/-- Another subscriber stays free. -/
theorem free_addRelay (single : Single room) {relayTrackId : TrackId}
    {made : PeerId → Option Track}
    (apart : ∀ peerId otherId track, made peerId = some track → made otherId = some track →
      peerId = otherId)
    {subscriberId peerId : PeerId} (free : room.Free relayTrackId made subscriberId)
    (other : peerId ≠ subscriberId) (otherFree : room.Free relayTrackId made peerId) :
    (room.addRelay relayTrackId made subscriberId).Free relayTrackId made peerId := by
  rcases @gains_addRelay room relayTrackId made subscriberId with
    same | ⟨relay, gains, session, found, source⟩
  · rw [same]
    exact otherFree
  · have after := single.addRelay free
    obtain ⟨bare, answers⟩ := otherFree
    constructor
    · intro ⟨later, track, entry, lookup, own, listed, member⟩
      have held : (room.addRelay relayTrackId made subscriberId).Holds subscriberId relay :=
        (gains.holds subscriberId relay).mpr (.inr ⟨rfl, rfl⟩)
      obtain ⟨old, listedBefore, list⟩ := gains.entries relayTrackId entry listed
      rw [if_pos rfl] at list
      rw [list] at member
      rcases List.mem_append.mp member with member | new
      · rw [gains.others peerId other] at lookup
        exact bare ⟨later, track, old, lookup, own, listedBefore, member⟩
      · rw [List.mem_singleton.mp new] at own
        exact other (after.owned peerId subscriberId relay ⟨later, relayTrackId, lookup, own⟩ held)
    · intro track answer
      rcases answers track answer with held | ⟨unheld, unlisted⟩
      · exact .inl ((gains.holds peerId track).mpr (.inl held))
      · have new : track ≠ relay := by
          rintro rfl
          rcases source with own | ⟨_, made⟩
          · exact unheld subscriberId ⟨session, relayTrackId, found, own⟩
          · exact other (apart peerId subscriberId track answer made)
        refine .inr ⟨fun otherId held => ?_, fun listed => ?_⟩
        · rcases (gains.holds otherId track).mp held with old | ⟨_, same⟩
          · exact unheld otherId old
          · exact new same
        · exact (gains.lists track listed).elim unlisted new

/-- Relaying a track to subscribers that are all free for it. -/
theorem foldl_addRelay (single : Single room) {relayTrackId : TrackId}
    {made : PeerId → Option Track}
    (apart : ∀ peerId otherId track, made peerId = some track → made otherId = some track →
      peerId = otherId)
    {subscribers : List PeerId} (once : subscribers.Nodup)
    (free : ∀ peerId ∈ subscribers, room.Free relayTrackId made peerId) :
    Single (subscribers.foldl (Room.addRelay · relayTrackId made) room) := by
  induction subscribers generalizing room with
  | nil => exact single
  | cons first subscribers ih =>
      obtain ⟨unique, once⟩ := List.nodup_cons.mp once
      have now := free first List.mem_cons_self
      apply ih (single.addRelay now) once
      intro peerId member
      have other : peerId ≠ first := fun same => unique (same ▸ member)
      exact single.free_addRelay apart now other (free peerId (List.mem_cons_of_mem _ member))

theorem emplaceEntry (single : Single room) (relayTrackId : TrackId) (track : Track) :
    Single (room.emplaceEntry relayTrackId track) := by
  unfold Room.emplaceEntry
  split
  · exact single
  · have entries (query : TrackId) (entry : ForwardEntry)
        (found : (room.forwardByTrack.insert relayTrackId { sourceTrack := track }).lookup query =
          some entry) :
        entry.relayTracks = [] ∨ room.forwardByTrack.lookup query = some entry := by
      rw [lookup_insert_if] at found
      split at found
      · cases found
        exact .inl rfl
      · exact .inr found
    refine ⟨single.owned, fun query entry other listed member => ?_, fun query entry listed => ?_⟩
    · rcases entries query entry listed with empty | old
      · rw [empty] at member
        cases member
      · exact single.filed query entry other old member
    · rcases entries query entry listed with empty | old
      · rw [empty]
        exact List.nodup_nil
      · exact single.nodup query entry old

theorem free_emplaceEntry {relayTrackId : TrackId} {made : PeerId → Option Track}
    {peerId : PeerId} (free : room.Free relayTrackId made peerId) (track : Track) :
    (room.emplaceEntry relayTrackId track).Free relayTrackId made peerId := by
  unfold Room.emplaceEntry
  split
  · exact free
  · rename_i absent
    obtain ⟨bare, answers⟩ := free
    refine ⟨?_, fun other answer => (answers other answer).imp_right fun ⟨unheld, unlisted⟩ =>
      ⟨unheld, ?_⟩⟩
    · intro ⟨session, relay, entry, found, held, listed, member⟩
      rw [Finmap.lookup_insert] at listed
      cases listed
      cases member
    · intro ⟨query, entry, listed, member⟩
      rw [lookup_insert_if] at listed
      split at listed
      · cases listed
        cases member
      · exact unlisted ⟨query, entry, listed, member⟩

theorem trackAdded (single : Single room) {publisherId : PeerId} {track : Track}
    {trackId : TrackId} {subscribers : List PeerId} {made : PeerId → Option Track}
    (own : owning room made) (all : Enumerates subscribers (room.subscribers publisherId))
    (bare : ∀ peerId ∈ room.subscribers publisherId,
      ¬ room.Carries (buildRelayTrackId publisherId trackId) peerId) :
    Single (room.onPublisherTrackAdded publisherId track trackId subscribers made) := by
  apply (single.emplaceEntry _ track).foldl_addRelay own.2 all.1
  intro peerId member
  exact free_emplaceEntry ⟨bare peerId (all.mem_iff.mp member), own.1 peerId⟩ track

/-- **Step lemma.** -/
theorem step {event : Event} {after : Room} (single : Single room)
    (unrelayed : Unrelayed event room) (effect : Room.Effect owning event room after) :
    Single after := by
  cases event with
  | addPeer participantId =>
      obtain ⟨existing, all, rfl⟩ := effect
      by_cases present : participantId ∈ room.peers
      · rw [Room.addPeer, if_pos present]
        exact single
      · exact single.addPeer present all
  | removePeer participantId =>
      have changed : after = _ := effect
      subst changed
      by_cases present : participantId ∈ room.peers
      · exact single.removePeer present
      · rw [Room.removePeer, if_neg present]
        exact single
  | trackAdded publisherId track trackId =>
      obtain ⟨subscribers, made, own, all, rfl⟩ := effect
      exact single.trackAdded own all unrelayed
  | trackRemoved publisherId trackId =>
      obtain ⟨subscribers, all, rfl⟩ := effect
      exact single.trackRemoved

end Single

/-- An event that adds no track again for a subscriber that carries it. -/
def UnrelayedStep (event : Event) (before after : Room) : Prop :=
  Unrelayed event before ∧ Room.Effect owning event before after

/-- **A message is sent to each relay at most once** while no track is added again for
a subscriber that carries it. -/
theorem receivers_nodup_of_runs {events : List Event} {room : Room}
    (run : Runs UnrelayedStep {} events room) (live : Track → Bool) (relayTrackId : TrackId) :
    (room.receivers live relayTrackId).Nodup := by
  have single : Single room :=
    run.invariant (fun _ _ _ single step => single.step step.1 step.2) Single.empty
  unfold Room.receivers
  cases found : room.forwardByTrack.lookup relayTrackId with
  | none => exact List.nodup_nil
  | some entry => exact (single.nodup relayTrackId entry found).filter live

/-- The relay that is made for the second of two peers. -/
def madeForBob : PeerId → Option Track := fun peerId => if peerId = "bob" then some 1 else none

theorem owning_paired : owning paired.room madeForBob := by
  have bob (peerId : PeerId) (track : Track) (answer : madeForBob peerId = some track) :
      peerId = "bob" := by
    unfold madeForBob at answer
    split at answer
    · assumption
    · cases answer
  refine ⟨fun peerId track _ => .inr ⟨fun otherId held => ?_, fun listed => ?_⟩, ?_⟩
  · obtain ⟨session, relayTrackId, found, held⟩ := held
    have peers : paired.room.peers.lookup otherId =
        if otherId = "bob" then some { participantId := "bob" }
        else if otherId = "alice" then some { participantId := "alice" } else none := by
      rw [← Finmap.lookup_empty (β := fun _ => PeerSession) otherId, ← lookup_insert_if,
        ← lookup_insert_if]
      rfl
    rw [peers] at found
    split at found
    · cases found
      cases held
    · split at found
      · cases found
        cases held
      · cases found
  · obtain ⟨relayTrackId, entry, found, _⟩ := listed
    cases found
  · intro peerId otherId track first second
    rw [bob peerId track first, bob otherId track second]

/-- Two peers, and a track of the first. -/
def relayed : Room :=
  paired.room.onPublisherTrackAdded "alice" 0 "camera:0" ["bob"] madeForBob

theorem joined_bob : Room.Effect owning (.addPeer "bob") alone.room paired.room :=
  ⟨["alice"], by decide, rfl⟩

theorem added_camera :
    Room.Effect owning (.trackAdded "alice" 0 "camera:0") paired.room relayed :=
  ⟨["bob"], madeForBob, owning_paired, by decide, rfl⟩

/-- The track reaches the other peer once. -/
theorem receivers_nodup_relayed : Runs UnrelayedStep {}
      [.addPeer "alice", .addPeer "bob", .trackAdded "alice" 0 "camera:0"] relayed ∧
      (relayed.receivers (fun _ => true) "alice|camera:0").Nodup := by
  have run : Runs UnrelayedStep {}
      [.addPeer "alice", .addPeer "bob", .trackAdded "alice" 0 "camera:0"] relayed := by
    refine .cons ⟨trivial, [], by decide, rfl⟩ (.cons ⟨trivial, joined_bob⟩
      (.cons ⟨?_, added_camera⟩ .nil))
    intro peerId _ ⟨session, relay, entry, _, _, listed, _⟩
    cases listed
  exact ⟨run, receivers_nodup_of_runs run _ _⟩

/-- **A track that is added twice is sent twice to the same relay.** -/
theorem relayed_twice : ∃ room, Runs (Room.Effect owning) {}
      [.addPeer "alice", .addPeer "bob", .trackAdded "alice" 0 "camera:0",
        .trackAdded "alice" 0 "camera:0"] room ∧
      room.Holds "bob" 1 ∧ ∀ live : Track → Bool, live 1 = true →
        ¬ (room.receivers live "alice|camera:0").Nodup := by
  have again : owning relayed fun _ => none := by
    constructor
    · intro peerId track answer
      cases answer
    · intro peerId otherId track answer
      cases answer
  refine ⟨relayed.onPublisherTrackAdded "alice" 0 "camera:0" ["bob"] fun _ => none,
    .cons ⟨[], by decide, rfl⟩ (.cons joined_bob (.cons added_camera
      (.cons ⟨["bob"], _, again, by decide, rfl⟩ .nil))), ?_, ?_⟩
  · exact ⟨_, "alice|camera:0", rfl, rfl⟩
  · intro live alive
    change ¬ (List.filter live [1, 1]).Nodup
    simp [alive]

end Callifornia.Sfu
