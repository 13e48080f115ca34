import Callifornia.Sfu.Runtime

/-! # What the sections of the runtime do

Seen from outside, the runtime maps a peer, a participant of a room, to the
signaling node that owns it, and lists the peers of each signaling node.
-/

namespace Callifornia.Sfu

open FiniteMap

/-- The signaling node of a peer of the room. -/
def Room.owner (room : Room) (participantId : PeerId) : Option SignalingId :=
  (room.peers.lookup participantId).map (·.signalingId)

namespace Room

variable {room : Room} {participantId : PeerId}

theorem owner_isSome : (room.owner participantId).isSome = true ↔ participantId ∈ room.peers := by
  rw [owner, Option.isSome_map]
  exact Finmap.lookup_isSome

theorem owner_of_peerCount (empty : room.peerCount = 0) : room.owner participantId = none := by
  rw [← Option.not_isSome_iff_eq_none, owner_isSome, ← Finmap.mem_keys,
    Finset.card_eq_zero.mp empty]
  exact Finset.notMem_empty _

/-- A new peer belongs to the node of its session. -/
theorem addPeer_owner {session : PeerSession} (existing : List PeerId)
    (absent : session.participantId ∉ room.peers) :
    (room.addPeer session existing).1 = true ∧
      ∀ peerId, (room.addPeer session existing).2.owner peerId =
        if peerId = session.participantId then some session.signalingId
        else room.owner peerId := by
  unfold addPeer
  rw [if_neg absent]
  refine ⟨rfl, fun peerId => ?_⟩
  rw [owner, (foldl_subscribeBoth _ session.participantId existing).1, lookup_insert_if]
  split <;> rfl

theorem removePeer_owner (room : Room) (participantId : PeerId) :
    (room.removePeer participantId).1 = (room.owner participantId).isSome ∧
      ∀ peerId, (room.removePeer participantId).2.owner peerId =
        if peerId = participantId then none else room.owner peerId := by
  unfold removePeer
  by_cases present : participantId ∈ room.peers
  · rw [if_pos present]
    refine ⟨(owner_isSome.mpr present).symm, fun peerId => ?_⟩
    rw [owner, lookup_mapValues, lookup_erase_if]
    by_cases same : peerId = participantId
    · simp only [same, ↓reduceIte, Option.map_none]
    · simp only [same, ↓reduceIte, Option.map_map]
      rfl
  · rw [if_neg present]
    have none : room.owner participantId = none := by
      rw [← Option.not_isSome_iff_eq_none, owner_isSome]
      exact present
    refine ⟨by rw [none]; rfl, fun peerId => ?_⟩
    split
    · rename_i same
      rw [same, none]
    · rfl

end Room

namespace SfuRuntime

/-- The signaling node that owns a peer. -/
def owner (runtime : SfuRuntime) (peer : RoomId × PeerId) : Option SignalingId :=
  (runtime.rooms.lookup peer.1).bind (·.owner peer.2)

/-- The peers listed under a signaling node. -/
def listed (runtime : SfuRuntime) (signalingId : SignalingId) : List (RoomId × PeerId) :=
  (runtime.signalingPeers.lookup signalingId).getD []

/-- Every room has a peer. -/
def Occupied (runtime : SfuRuntime) : Prop :=
  ∀ roomId room, runtime.rooms.lookup roomId = some room → room.peerCount ≠ 0

/-- Under each signaling node, exactly the peers it owns are listed, each once. -/
structure Exact (runtime : SfuRuntime) : Prop where
  listed : ∀ signalingId peer, peer ∈ runtime.listed signalingId ↔
    signalingId ≠ "" ∧ runtime.owner peer = some signalingId
  once : ∀ signalingId, (runtime.listed signalingId).Nodup

variable (runtime : SfuRuntime)

/-! ## Rooms and index -/

/-- A room, with the peers it would have if it were created. -/
theorem getOrCreateRoom_owner (roomId : RoomId) :
    (∀ participantId, (runtime.getOrCreateRoom roomId).1.owner participantId =
      runtime.owner (roomId, participantId)) ∧
      (runtime.getOrCreateRoom roomId).2.signalingPeers = runtime.signalingPeers ∧
      (∀ other, other ≠ roomId → (runtime.getOrCreateRoom roomId).2.rooms.lookup other =
        runtime.rooms.lookup other) ∧
      (runtime.rooms.lookup roomId ≠ none → (runtime.getOrCreateRoom roomId).2 = runtime) := by
  unfold getOrCreateRoom owner
  cases found : runtime.rooms.lookup roomId with
  | some room =>
      refine ⟨fun participantId => ?_, rfl, fun _ _ => rfl, fun _ => rfl⟩
      rw [found]
      rfl
  | none =>
      refine ⟨fun participantId => ?_, rfl, fun other apart => ?_,
        fun present => absurd rfl present⟩
      · rw [found]
        rfl
      · exact Finmap.lookup_insert_of_ne _ apart

/-- A room that is filed decides who owns its peers. -/
theorem insert_owner (roomId : RoomId) (room : Room) (peer : RoomId × PeerId) :
    owner { runtime with rooms := runtime.rooms.insert roomId room } peer =
      if peer.1 = roomId then room.owner peer.2 else runtime.owner peer := by
  simp only [owner, lookup_insert_if]
  split <;> rfl

/-- A room that is put back decides who owns its peers. -/
theorem putBack_owner (roomId : RoomId) (room : Room) (peer : RoomId × PeerId) :
    (runtime.putBack roomId room).owner peer =
      if peer.1 = roomId then room.owner peer.2 else runtime.owner peer := by
  unfold putBack
  by_cases empty : room.peerCount = 0
  · simp only [owner, empty, ↓reduceIte, lookup_erase_if]
    split
    · exact (Room.owner_of_peerCount empty).symm
    · rfl
  · rw [if_neg empty]
    exact runtime.insert_owner roomId room peer

theorem insert_occupied {runtime : SfuRuntime} {roomId : RoomId} {room : Room}
    (others : ∀ other later, other ≠ roomId → runtime.rooms.lookup other = some later →
      later.peerCount ≠ 0) (seated : room.peerCount ≠ 0) :
    Occupied { runtime with rooms := runtime.rooms.insert roomId room } := by
  intro other later found
  simp only [lookup_insert_if] at found
  split at found
  · cases found
    exact seated
  · exact others other later ‹_› found

theorem putBack_occupied {runtime : SfuRuntime} {roomId : RoomId} (room : Room)
    (others : ∀ other later, other ≠ roomId → runtime.rooms.lookup other = some later →
      later.peerCount ≠ 0) : (runtime.putBack roomId room).Occupied := by
  unfold putBack
  by_cases empty : room.peerCount = 0
  · rw [if_pos empty]
    intro other later found
    simp only [lookup_erase_if] at found
    split at found
    · cases found
    · exact others other later ‹_› found
  · rw [if_neg empty]
    exact insert_occupied others empty

/-- A section that changes no index entry. -/
theorem listed_congr {first second : SfuRuntime}
    (same : first.signalingPeers = second.signalingPeers) (signalingId : SignalingId) :
    first.listed signalingId = second.listed signalingId := by
  rw [listed, listed, same]

theorem index_spec (signalingId : SignalingId) (peer : RoomId × PeerId) :
    (runtime.index signalingId peer).rooms = runtime.rooms ∧
      ∀ query, (runtime.index signalingId peer).listed query =
        if query = signalingId ∧ signalingId ≠ "" then runtime.listed query ++ [peer]
        else runtime.listed query := by
  unfold index listed
  by_cases empty : signalingId = ""
  · simp [empty]
  · simp only [empty, ↓reduceIte, ne_eq, not_false_eq_true, and_true, lookup_insert_if, true_and]
    intro query
    split
    · rename_i same
      rw [same]
      rfl
    · rfl

theorem unindex_spec (session : PeerSession) (peer : RoomId × PeerId) :
    (runtime.unindex session peer).rooms = runtime.rooms ∧
      ∀ query, (runtime.unindex session peer).listed query =
        if query = session.signalingId then (runtime.listed query).filter (· ≠ peer)
        else runtime.listed query := by
  unfold unindex listed
  cases found : runtime.signalingPeers.lookup session.signalingId with
  | none =>
      refine ⟨rfl, fun query => ?_⟩
      by_cases same : query = session.signalingId
      · rw [if_pos same, same, found]
        rfl
      · rw [if_neg same]
  | some peers =>
      refine ⟨rfl, fun query => ?_⟩
      dsimp only
      by_cases gone : peers.filter (· ≠ peer) = []
      · rw [if_pos gone, lookup_erase_if]
        split
        · rename_i same
          rw [same, found]
          exact gone.symm
        · rfl
      · rw [if_neg gone, lookup_insert_if]
        split
        · rename_i same
          rw [same, found]
          rfl
        · rfl

/-! ## Sections -/

/-- What taking a peer out of its room does. -/
structure Dropped (peer : RoomId × PeerId) (reply : Option Bool) (after : SfuRuntime) :
    Prop where
  removed : reply = some true ↔ (runtime.owner peer).isSome
  owner : ∀ query, after.owner query = if query = peer then none else runtime.owner query
  index : after.signalingPeers = runtime.signalingPeers
  occupied : runtime.Occupied → after.Occupied

theorem dropPeer_spec (roomId : RoomId) (participantId : PeerId) :
    Dropped runtime (roomId, participantId) (runtime.dropPeer roomId participantId).1
      (runtime.dropPeer roomId participantId).2 := by
  unfold dropPeer
  cases found : runtime.rooms.lookup roomId with
  | none =>
      have unowned : runtime.owner (roomId, participantId) = none := by
        rw [SfuRuntime.owner, found]
        rfl
      refine ⟨by simp [unowned], fun query => ?_, rfl, id⟩
      by_cases same : query = (roomId, participantId)
      · rw [if_pos same, same]
        exact unowned
      · rw [if_neg same]
  | some room =>
      obtain ⟨removed, owners⟩ := room.removePeer_owner participantId
      have own (query : PeerId) : runtime.owner (roomId, query) = room.owner query := by
        rw [SfuRuntime.owner, found]
        rfl
      refine ⟨?_, fun query => ?_, rfl, fun occupied => ?_⟩
      · rw [own, ← removed]
        exact Option.some_inj
      · rw [putBack_owner, owners]
        obtain ⟨queryRoom, queryPeer⟩ := query
        by_cases here : queryRoom = roomId
        · subst here
          simp only [↓reduceIte, Prod.mk.injEq, true_and, own]
        · simp only [here, ↓reduceIte, Prod.mk.injEq, false_and]
      · exact putBack_occupied _ fun other later _ found => occupied other later found

/-- What the second section of `removePeer` does: the peer is out of its room, and out of
the list of the session that the first section found. -/
structure Removed (peer : RoomId × PeerId) (session : Option PeerSession) (reply : Bool)
    (after : SfuRuntime) : Prop where
  removed : reply = (runtime.owner peer).isSome
  owner : ∀ query, after.owner query = if query = peer then none else runtime.owner query
  listed : ∀ query, after.listed query = (runtime.listed query).filter (· ≠ peer) ∨
    (after.listed query = runtime.listed query ∧
      (runtime.owner peer = none ∨ session.map (·.signalingId) ≠ some query))
  occupied : runtime.Occupied → after.Occupied

theorem removePeer_spec (roomId : RoomId) (participantId : PeerId)
    (session : Option PeerSession) :
    Removed runtime (roomId, participantId) session
      (runtime.removePeer roomId participantId session).1
      (runtime.removePeer roomId participantId session).2 := by
  have spec := runtime.dropPeer_spec roomId participantId
  unfold removePeer
  generalize runtime.dropPeer roomId participantId = dropped at spec
  obtain ⟨reply, after⟩ := dropped
  obtain ⟨taken, owner, index, occupied⟩ := spec
  dsimp only at taken owner index occupied
  have same (query : SignalingId) : after.listed query = runtime.listed query :=
    listed_congr index query
  have answer (removed : Bool) (replied : reply = some removed) :
      removed = (runtime.owner (roomId, participantId)).isSome := by
    rw [replied, Option.some_inj] at taken
    exact Bool.eq_iff_iff.mpr taken
  cases reply with
  | none =>
      have unowned : (runtime.owner (roomId, participantId)).isSome = false := by
        rw [Bool.eq_false_iff, ne_eq, ← taken]
        nofun
      refine ⟨unowned.symm, owner, fun query => .inr ⟨same query, .inl ?_⟩, occupied⟩
      exact Option.not_isSome_iff_eq_none.mp (by rw [unowned]; exact Bool.false_ne_true)
  | some removed =>
      cases session with
      | none =>
          exact ⟨answer removed rfl, owner, fun query => .inr ⟨same query, .inr nofun⟩, occupied⟩
      | some session =>
          obtain ⟨rooms, listed⟩ := after.unindex_spec session (roomId, participantId)
          refine ⟨answer removed rfl, fun query => ?_, fun query => ?_, fun here => ?_⟩
          · rw [← owner, SfuRuntime.owner, rooms]
            rfl
          · rw [listed, same]
            by_cases own : query = session.signalingId
            · exact .inl (if_pos own)
            · refine .inr ⟨if_neg own, .inr fun equal => own ?_⟩
              exact (Option.some.inj equal).symm
          · unfold Occupied
            rw [rooms]
            exact occupied here

/-- A peer that is removed is listed nowhere afterwards, if it was listed under the node
of the session that was found, or not at all. -/
theorem Removed.mem_listed {runtime : SfuRuntime} {peer : RoomId × PeerId}
    {session : Option PeerSession} {reply : Bool} {after : SfuRuntime}
    (removed : Removed runtime peer session reply after)
    (found : ∀ signalingId, peer ∈ runtime.listed signalingId →
      runtime.owner peer ≠ none ∧ session.map (·.signalingId) = some signalingId)
    (signalingId : SignalingId) (query : RoomId × PeerId) :
    query ∈ after.listed signalingId ↔ query ∈ runtime.listed signalingId ∧ query ≠ peer := by
  rcases removed.listed signalingId with filtered | ⟨same, unfound⟩
  · rw [filtered, List.mem_filter, decide_eq_true_iff]
  · rw [same]
    refine ⟨fun member => ⟨member, ?_⟩, And.left⟩
    rintro rfl
    obtain ⟨owned, own⟩ := found signalingId member
    exact unfound.elim owned fun other => other own

theorem Removed.once {runtime : SfuRuntime} {peer : RoomId × PeerId}
    {session : Option PeerSession} {reply : Bool} {after : SfuRuntime}
    (removed : Removed runtime peer session reply after) {signalingId : SignalingId}
    (once : (runtime.listed signalingId).Nodup) : (after.listed signalingId).Nodup := by
  rcases removed.listed signalingId with filtered | ⟨same, _⟩
  · rw [filtered]
    exact once.filter _
  · rw [same]
    exact once

/-- What moving the peers of a signaling node out of the index does. -/
theorem takeSignaling_spec (signalingId : SignalingId) :
    ((runtime.takeSignaling signalingId).1.getD [] = runtime.listed signalingId) ∧
      (runtime.takeSignaling signalingId).2.rooms = runtime.rooms ∧
      ∀ query, (runtime.takeSignaling signalingId).2.listed query =
        if query = signalingId then [] else runtime.listed query := by
  unfold takeSignaling listed
  cases found : runtime.signalingPeers.lookup signalingId with
  | none =>
      refine ⟨rfl, rfl, fun query => ?_⟩
      by_cases same : query = signalingId
      · rw [if_pos same, same, found]
        rfl
      · rw [if_neg same]
  | some toRemove =>
      refine ⟨rfl, rfl, fun query => ?_⟩
      simp only [lookup_erase_if]
      split <;> rfl

/-- What adding a peer does: it fails and changes nothing of what is seen from outside,
or the peer is new and belongs to its node from now on. -/
inductive Added (peer : RoomId × PeerId) (signalingId : SignalingId) (init : Except String Unit) :
    Except String Unit → SfuRuntime → Prop
  | failed {what : String} {after : SfuRuntime} :
      (init.isOk = true → (runtime.owner peer).isSome = true) →
      (∀ query, after.owner query = runtime.owner query) →
      after.signalingPeers = runtime.signalingPeers →
      (runtime.Occupied → after.Occupied) → Added peer signalingId init (.error what) after
  | added {after : SfuRuntime} :
      init.isOk = true → runtime.owner peer = none →
      (∀ query, after.owner query =
        if query = peer then some signalingId else runtime.owner query) →
      (∀ query, after.listed query =
        if query = signalingId ∧ signalingId ≠ "" then runtime.listed query ++ [peer]
        else runtime.listed query) →
      (runtime.Occupied → after.Occupied) → Added peer signalingId init (.ok ()) after

theorem addPeer_spec (roomId : RoomId) (participantId : PeerId) (signalingId : SignalingId)
    (init : Except String Unit) (existing : List PeerId) :
    Added runtime (roomId, participantId) signalingId init
      (runtime.addPeer roomId participantId signalingId init existing).1
      (runtime.addPeer roomId participantId signalingId init existing).2 := by
  obtain ⟨owners, index, others, kept⟩ := runtime.getOrCreateRoom_owner roomId
  unfold addPeer
  generalize runtime.getOrCreateRoom roomId = created at owners index others kept
  obtain ⟨room, opened⟩ := created
  dsimp only at owners index others kept ⊢
  have present : (room.findPeer participantId).isSome =
    (runtime.owner (roomId, participantId)).isSome := by
    rw [← owners, Room.owner, Option.isSome_map]
    rfl
  by_cases here : (room.findPeer participantId).isSome = true
  · rw [if_pos here]
    rw [present] at here
    have found : runtime.rooms.lookup roomId ≠ none := by
      intro none
      rw [SfuRuntime.owner, none] at here
      cases here
    have same : opened = runtime := kept found
    rw [same]
    exact .failed (fun _ => here) (fun _ => rfl) rfl id
  · rw [if_neg here]
    have absent : participantId ∉ room.peers := by
      rw [← Room.owner_isSome, owners, ← present]
      exact here
    have unowned : runtime.owner (roomId, participantId) = none := by
      rw [← Option.not_isSome_iff_eq_none, ← present]
      exact here
    obtain ⟨success, grown⟩ :=
      @Room.addPeer_owner room { participantId, signalingId } existing absent
    generalize room.addPeer { participantId, signalingId } existing = added at success grown
    obtain ⟨done, larger⟩ := added
    dsimp only at success grown
    subst success
    have own (query : RoomId × PeerId) :
        (if query.1 = roomId then larger.owner query.2 else opened.owner query) =
          if query = (roomId, participantId) then some signalingId else runtime.owner query := by
      obtain ⟨queryRoom, queryPeer⟩ := query
      by_cases inside : queryRoom = roomId
      · subst inside
        simp only [↓reduceIte, grown, Prod.mk.injEq, true_and, owners]
      · simp only [inside, ↓reduceIte, Prod.mk.injEq, false_and]
        rw [SfuRuntime.owner, SfuRuntime.owner, others queryRoom inside]
    have rest (occupied : runtime.Occupied) (other : RoomId) (later : Room)
        (apart : other ≠ roomId) (found : opened.rooms.lookup other = some later) :
        later.peerCount ≠ 0 := by
      rw [others other apart] at found
      exact occupied other later found
    cases init with
    | error what =>
        refine .failed (fun ok => nomatch ok) (fun query => ?_) index fun occupied =>
          putBack_occupied _ (rest occupied)
        rw [putBack_owner, (larger.removePeer_owner participantId).2]
        have added := own query
        by_cases same : query = (roomId, participantId)
        · subst same
          simp only [↓reduceIte, unowned]
        · rw [if_neg same] at added
          rw [← added]
          obtain ⟨queryRoom, queryPeer⟩ := query
          by_cases inside : queryRoom = roomId
          · subst inside
            have apart : queryPeer ≠ participantId := fun equal => same (by rw [equal])
            simp only [↓reduceIte, apart]
          · simp only [inside, ↓reduceIte]
    | ok _ =>
        obtain ⟨sameRooms, listed⟩ := index_spec
          { opened with rooms := opened.rooms.insert roomId larger } signalingId
          (roomId, participantId)
        refine .added rfl unowned (fun query => ?_) (fun query => ?_) fun occupied => ?_
        · rw [← own query, ← insert_owner, SfuRuntime.owner, sameRooms]
          rfl
        · rw [listed]
          have same (query : SignalingId) : SfuRuntime.listed
              { opened with rooms := opened.rooms.insert roomId larger } query =
              runtime.listed query := listed_congr index query
          rw [same]
        · intro other later found
          rw [sameRooms] at found
          refine insert_occupied (rest occupied) (fun empty => ?_) other later found
          have present := grown participantId
          rw [Room.owner_of_peerCount empty] at present
          simp at present

end SfuRuntime

end Callifornia.Sfu
