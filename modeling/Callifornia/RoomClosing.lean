import Callifornia.DeadSfu
import Callifornia.RoomLoad
import Callifornia.Signaling.Effects
import Callifornia.Signaling.SessionIndex

/-! # Closing the rooms of one SFU

A node looks through the rooms its peers are in and closes those that are on the SFU. It
closes exactly these: the registries, the members, the bindings and the load lose what
belonged to them and nothing else.
-/

namespace Callifornia.RoomClosing

open Concurrency Concurrency.Program FiniteMap Store Signaling

/-! ## The rooms of a node -/

section Rooms

variable (node : NodeId) (roster : Roster)

/-- The address of a room's SFU; an empty one counts as none. -/
def address (roomId : RoomId) : Option Address :=
  ((roster.bindings.lookup roomId).bind (·.get "sfu_grpc_addr")).filter (· ≠ "")

/-- The rooms with a peer on the node. -/
def hosted : Finset RoomId := (roster.peers node).keys.image Prod.fst

/-- A node hosts the rooms of its peers. -/
theorem mem_hosted {roomId : RoomId} :
    roomId ∈ hosted node roster ↔ ∃ nickname, (roomId, nickname) ∈ roster.peers node := by
  simp only [hosted, Finset.mem_image, Finmap.mem_keys, Prod.exists, exists_and_right,
    exists_eq_right]

/-- The rooms of an SFU that have a peer on the node. -/
def lost (sfuAddr : Address) : Finset RoomId :=
  (hosted node roster).filter (address roster · = some sfuAddr)

/-- The number of rooms on an instance, as the store counts them. -/
def load (instanceId : InstanceId) : ℤ := (roster.loads.lookup instanceId).getD 0

/-- The rooms bound to an instance. -/
def bound (instanceId : InstanceId) : Finset RoomId :=
  support (RoomLoad.Names instanceId) roster.bindings

/-- The assignment script wrote this binding, for an owner that has a host. -/
def Written (hash : Hash) : Prop :=
  ∃ (ownerHost ownerId : String) (ownerPort : UInt16) (best : SfuInstance), ownerHost ≠ "" ∧
    hash = Redis.newBinding ownerHost (toString ownerPort.toNat) ownerId best

/-- **The tables agree on the rooms of the node.** -/
structure Sound : Prop where
  /-- The sessions in memory can be read from either end. -/
  index : (roster.nodes node).sessions.Exact
  /-- The peers are the sessions that are in a room. -/
  seated : ∀ roomId nickname, (roomId, nickname) ∈ roster.peers node ↔
    ∃ sessionId, roster.known node sessionId = some ⟨nickname, some roomId⟩
  /-- The members of a room with peers are these. -/
  members : ∀ roomId ∈ hosted node roster, ∀ nickname,
    (roomId, nickname) ∈ roster.members ↔ (roomId, nickname) ∈ roster.peers node
  /-- A session is in the same room in memory and in its hash. -/
  recorded : ∀ sessionId session, roster.known node sessionId = some session →
    roster.room sessionId = session.roomId
  /-- The sessions of a room with peers are in memory. -/
  known : ∀ sessionId, ∀ roomId ∈ roster.room sessionId, roomId ∈ hosted node roster →
    (roster.known node sessionId).isSome
  written : ∀ roomId, ∀ hash ∈ roster.bindings.lookup roomId, Written hash
  counted : ∀ instanceId, load roster instanceId = (bound roster instanceId).card

/-- The session is in none of these rooms. -/
def unseat (rooms : Finset RoomId) (session : SessionState) : SessionState :=
  { session with roomId := session.roomId.filter (· ∉ rooms) }

/-- **These rooms have been closed**, and nothing else has happened to the roster. -/
structure Closed (rooms : Finset RoomId) (before after : Roster) : Prop where
  bindings : ∀ roomId, after.bindings.lookup roomId =
    if roomId ∈ rooms then none else before.bindings.lookup roomId
  loads : ∀ instanceId,
    load after instanceId = load before instanceId - (rooms ∩ bound before instanceId).card
  members : ∀ roomId nickname, (roomId, nickname) ∈ after.members ↔
    roomId ∉ rooms ∧ (roomId, nickname) ∈ before.members
  peers : ∀ roomId nickname, (after.peers node).lookup (roomId, nickname) =
    if roomId ∈ rooms then none else (before.peers node).lookup (roomId, nickname)
  known : ∀ sessionId,
    after.known node sessionId = (before.known node sessionId).map (unseat rooms)
  sessions : ∀ sessionId, after.sessions sessionId =
    if (before.room sessionId).any (· ∈ rooms) then
      some (Hash.set (before.sessions sessionId) "room_id" "")
    else before.sessions sessionId
  nodes : ∀ other, other ≠ node → after.nodes other = before.nodes other
  sfuPeers : after.sfuPeers = before.sfuPeers
  reserved : after.reserved = before.reserved
  attached : after.attached = before.attached
  listening : after.listening = before.listening
  issued : after.issued = before.issued

end Rooms

/-! ## Several rooms -/

section Several

variable {node : NodeId} {before middle after : Roster} {rooms first second : Finset RoomId}

/-- Leaving no room changes no session. -/
theorem unseat_empty : unseat ∅ = id := by
  funext session
  obtain ⟨nickname, roomId⟩ := session
  cases roomId <;> simp [unseat]

/-- Leaving some rooms and then others is leaving all of them. -/
theorem unseat_unseat (session : SessionState) :
    unseat second (unseat first session) = unseat (first ∪ second) session := by
  obtain ⟨nickname, roomId⟩ := session
  cases roomId <;> simp [unseat]

/-- No room has been closed yet. -/
theorem closed_empty : Closed node ∅ before before := by
  refine ⟨fun _ => rfl, fun _ => ?_, fun _ _ => ?_, fun _ _ => rfl, fun _ => ?_, fun _ => ?_,
    fun _ _ => rfl, rfl, rfl, rfl, rfl, rfl⟩
  · simp
  · simp
  · rw [unseat_empty, Option.map_id_fun, id]
  · simp

/-- A session of a closed room is in none. -/
theorem Closed.room (closed : Closed node rooms before after) (sessionId : SessionId) :
    after.room sessionId = (before.room sessionId).filter (· ∉ rooms) := by
  have written : after.room sessionId = ((after.sessions sessionId).bind
    (·.get "room_id")).filter (· ≠ "") := rfl
  rw [written, closed.sessions]
  cases inside : before.room sessionId with
  | none => exact inside
  | some roomId =>
      by_cases gone : roomId ∈ rooms
      · simp [Option.filter, gone, Hash.get_set]
      · have stays : (some roomId).filter (· ∉ rooms) = some roomId :=
          Option.filter_eq_some_iff.mpr ⟨rfl, decide_eq_true gone⟩
        rw [stays, Option.any_some, if_neg (Bool.not_eq_true _ ▸ decide_eq_false gone)]
        exact inside

/-- The rooms bound to an instance are those that were not closed. -/
theorem Closed.bound (closed : Closed node rooms before after) (instanceId : InstanceId) :
    bound after instanceId = bound before instanceId \ rooms := by
  ext roomId
  simp only [RoomClosing.bound, mem_support, Finset.mem_sdiff, closed.bindings]
  by_cases gone : roomId ∈ rooms <;> simp [gone]

/-- First some rooms were closed and then others. -/
theorem Closed.trans (one : Closed node first before middle) (two : Closed node second middle after)
    (apart : Disjoint first second) : Closed node (first ∪ second) before after where
  bindings roomId := by
    rw [two.bindings, one.bindings]
    by_cases gone : roomId ∈ first <;> by_cases goes : roomId ∈ second <;> simp [gone, goes]
  loads instanceId := by
    have left : second ∩ (RoomClosing.bound before instanceId \ first) =
        second ∩ RoomClosing.bound before instanceId := by
      rw [← Finset.inter_sdiff_assoc, Finset.sdiff_eq_self_of_disjoint]
      exact (apart.mono_right Finset.inter_subset_left).symm
    have both : ((first ∪ second) ∩ RoomClosing.bound before instanceId).card =
        (first ∩ RoomClosing.bound before instanceId).card +
          (second ∩ RoomClosing.bound before instanceId).card := by
      rw [Finset.union_inter_distrib_right, Finset.card_union_of_disjoint]
      exact apart.mono Finset.inter_subset_left Finset.inter_subset_left
    rw [two.loads, one.loads, one.bound, left, both]
    push_cast
    omega
  members roomId nickname := by
    rw [two.members, one.members]
    simp only [Finset.mem_union, not_or]
    tauto
  peers roomId nickname := by
    rw [two.peers, one.peers]
    by_cases gone : roomId ∈ first <;> by_cases goes : roomId ∈ second <;> simp [gone, goes]
  known sessionId := by
    rw [two.known, one.known, Option.map_map]
    exact congrArg (Option.map · _) (funext unseat_unseat)
  sessions sessionId := by
    rw [two.sessions, one.sessions, one.room]
    cases before.room sessionId with
    | none => rfl
    | some roomId =>
        by_cases gone : roomId ∈ first <;> by_cases goes : roomId ∈ second <;> simp [gone, goes]
  nodes other apart := (two.nodes other apart).trans (one.nodes other apart)
  sfuPeers := two.sfuPeers.trans one.sfuPeers
  reserved := two.reserved.trans one.reserved
  attached := two.attached.trans one.attached
  listening := two.listening.trans one.listening
  issued := two.issued.trans one.issued

/-- Closing rooms keeps the tables in agreement. -/
theorem Sound.closed (sound : Sound node before) (closed : Closed node rooms before after)
    (index : (after.nodes node).sessions.Exact) : Sound node after := by
  have peer_iff (roomId nickname) : (roomId, nickname) ∈ after.peers node ↔
      roomId ∉ rooms ∧ (roomId, nickname) ∈ before.peers node := by
    rw [← Finmap.lookup_isSome, ← Finmap.lookup_isSome, closed.peers]
    by_cases gone : roomId ∈ rooms <;> simp [gone]
  have hosted_iff (roomId) : roomId ∈ hosted node after ↔
      roomId ∉ rooms ∧ roomId ∈ hosted node before := by
    simp only [mem_hosted, peer_iff, exists_and_left]
  refine ⟨index, fun roomId nickname => ?_, fun roomId hosts nickname => ?_,
    fun sessionId session found => ?_, fun sessionId roomId inside hosts => ?_,
    fun roomId hash found => ?_, fun instanceId => ?_⟩
  · rw [peer_iff, sound.seated]
    simp only [closed.known, Option.map_eq_some_iff]
    constructor
    · rintro ⟨stays, sessionId, found⟩
      exact ⟨sessionId, _, found, by simp [unseat, stays]⟩
    · rintro ⟨sessionId, session, found, same⟩
      obtain ⟨rfl, kept⟩ := SessionState.mk.inj same
      obtain ⟨inside, stays⟩ := Option.filter_eq_some_iff.mp kept
      exact ⟨by simpa using stays, sessionId, by rw [found, ← inside]⟩
  · rw [closed.members, peer_iff]
    exact and_congr_right fun _ => sound.members roomId ((hosted_iff roomId).mp hosts).2 nickname
  · rw [closed.known] at found
    obtain ⟨earlier, was, rfl⟩ := Option.map_eq_some_iff.mp found
    rw [closed.room, sound.recorded sessionId earlier was]
    rfl
  · rw [closed.room] at inside
    have recorded := (Option.filter_eq_some_iff.mp inside).1
    rw [closed.known, Option.isSome_map]
    exact sound.known sessionId roomId recorded ((hosted_iff roomId).mp hosts).2
  · rw [closed.bindings] at found
    split at found
    · cases found
    · exact sound.written roomId hash found
  · rw [closed.loads, sound.counted, closed.bound, Finset.card_sdiff]
    have fewer : (rooms ∩ RoomClosing.bound before instanceId).card ≤
        (RoomClosing.bound before instanceId).card := Finset.card_le_card Finset.inter_subset_right
    omega

end Several

/-! ## One room -/

/-- Unregister several peers of a room. -/
def evict (roomId : RoomId) (nicknames : List Nickname) (peers : PeerRegistry) : PeerRegistry :=
  nicknames.foldl (fun peers nickname => peers.erase (roomId, nickname)) peers

/-- Clear the room of several sessions in their hashes. -/
def unrecord (sessionIds : List SessionId) (roster : Roster) : Roster :=
  sessionIds.foldl (fun roster sessionId => roster.hset sessionId "room_id" "") roster

/-- The room is gone from every table. -/
def cleared (node : NodeId) (roomId : RoomId) (nicknames : List Nickname)
    (sessionIds : List SessionId) (sessions : SessionStore) (roster : Roster) : Roster :=
  let closed := ((roster.withPeers node (evict roomId nicknames)).withSessions node
    fun _ => sessions).close roomId
  unrecord sessionIds { closed with members := closed.members.filter (·.1 ≠ roomId) }

section One

variable {node : NodeId} {roster : Roster} {roomId : RoomId} {nicknames : List Nickname}
  {sessionIds : List SessionId} {sessions : SessionStore}

/-- The named peers of the room are gone. -/
theorem lookup_evict (peers : PeerRegistry) (other : RoomId) (nickname : Nickname) :
    (evict roomId nicknames peers).lookup (other, nickname) =
      if other = roomId ∧ nickname ∈ nicknames then none else peers.lookup (other, nickname) := by
  induction nicknames generalizing peers with
  | nil => simp [evict]
  | cons first nicknames ih =>
      rw [evict, List.foldl_cons, ← evict, ih, lookup_erase_if]
      simp only [List.mem_cons, Prod.mk.injEq]
      by_cases here : other = roomId <;> by_cases same : nickname = first <;> simp [here, same]

/-- The sessions are recorded to have no room. -/
theorem unrecord_eq (once : sessionIds.Nodup) : unrecord sessionIds roster = { roster with
    sessions := fun sessionId =>
      if sessionId ∈ sessionIds then some (Hash.set (roster.sessions sessionId) "room_id" "")
      else roster.sessions sessionId } := by
  induction sessionIds generalizing roster with
  | nil => simp [unrecord]
  | cons first sessionIds ih =>
      obtain ⟨new, once⟩ := List.nodup_cons.mp once
      rw [unrecord, List.foldl_cons, ← unrecord, ih once]
      simp only [Roster.hset, Roster.mk.injEq, and_true]
      funext sessionId
      by_cases same : sessionId = first
      · subst same
        simp [new]
      · simp [same]

/-- Closing a bound room counts it off. -/
theorem load_close {hash : Hash} (found : roster.bindings.lookup roomId = some hash)
    (written : Written hash)
    (counts : ∀ instanceId, load roster instanceId = (bound roster instanceId).card)
    (instanceId : InstanceId) : load (roster.close roomId) instanceId =
      load roster instanceId - ({roomId} ∩ bound roster instanceId).card := by
  obtain ⟨ownerHost, ownerId, ownerPort, best, -, rfl⟩ := written
  have names (instanceId : InstanceId) : roomId ∈ bound roster instanceId ↔
      instanceId = best.instanceId := by
    rw [bound, mem_support]
    simp [found, RoomLoad.Names, Redis.get_newBinding, eq_comm]
  have after : load (roster.close roomId) instanceId =
      if instanceId = best.instanceId then decremented (roster.loads.lookup best.instanceId)
      else load roster instanceId := by
    have instance_eq : (roster.bindings.lookup roomId).bind (·.get "sfu_instance_id") =
        some best.instanceId := by simp [found, Redis.get_newBinding]
    simp only [load, Roster.close, instance_eq, lookup_insert_if]
    split <;> rfl
  rw [after]
  split
  · rename_i same
    subst same
    have one : {roomId} ∩ bound roster best.instanceId = {roomId} :=
      Finset.inter_eq_left.mpr (Finset.singleton_subset_iff.mpr ((names _).mpr rfl))
    have counted : 0 < (bound roster best.instanceId).card :=
      Finset.card_pos.mpr ⟨roomId, (names _).mpr rfl⟩
    have exact := counts best.instanceId
    rw [one, Finset.card_singleton, decremented]
    unfold load at exact ⊢
    split <;> omega
  · rename_i other
    have none : {roomId} ∩ bound roster instanceId = ∅ :=
      Finset.singleton_inter_of_notMem fun member => other ((names _).mp member)
    rw [none]
    simp

/-- Closing a room changes one node. -/
theorem nodes_cleared (once : sessionIds.Nodup) :
    (cleared node roomId nicknames sessionIds sessions roster).nodes =
      Function.update roster.nodes node
        ⟨evict roomId nicknames (roster.peers node), sessions⟩ := by
  rw [cleared, unrecord_eq once]
  simp [Roster.close, Roster.withPeers, Roster.withSessions, Roster.setNode, Roster.peers]

/-- Closing a room of the node closes it, and nothing else happens to the roster. -/
theorem closed_cleared (sound : Sound node roster) (hosts : roomId ∈ hosted node roster)
    (isBound : (roster.bindings.lookup roomId).isSome)
    (all : ∀ nickname, (roomId, nickname) ∈ roster.peers node → nickname ∈ nicknames)
    (clears : SessionStore.Cleared (roster.nodes node).sessions roomId sessionIds sessions) :
    Closed node {roomId} roster (cleared node roomId nicknames sessionIds sessions roster) := by
  obtain ⟨hash, found⟩ := Option.isSome_iff_exists.mp isBound
  -- A session is cleared in its hash exactly when that says it is in the room.
  have inside (sessionId : SessionId) :
      sessionId ∈ sessionIds ↔ (roster.room sessionId).any (· ∈ ({roomId} : Finset RoomId)) := by
    rw [clears.affected]
    simp only [Finset.mem_singleton, Option.any_eq_true, decide_eq_true_eq, exists_eq_right]
    constructor
    · intro seated
      obtain ⟨session, known, same⟩ := Option.bind_eq_some_iff.mp seated
      exact (sound.recorded sessionId session known).trans same
    · intro recorded
      obtain ⟨session, known⟩ := Option.isSome_iff_exists.mp
        (sound.known sessionId roomId recorded hosts)
      refine Option.bind_eq_some_iff.mpr ⟨session, known, ?_⟩
      exact (sound.recorded sessionId session known).symm.trans recorded
  have nodes := @nodes_cleared node roster roomId nicknames sessionIds sessions clears.once
  rw [cleared, unrecord_eq clears.once] at nodes ⊢
  have loads := @load_close _ roomId hash found (sound.written roomId hash found) sound.counted
  refine ⟨fun other => ?_, loads, fun other nickname => ?_, fun other nickname => ?_,
    fun sessionId => ?_, fun sessionId => ?_, fun other apart => ?_, rfl, rfl, rfl, rfl, rfl⟩
  · simp only [Roster.close, lookup_erase_if, Finset.mem_singleton]
    rfl
  · simp [Roster.close, Roster.withPeers, Roster.withSessions, Roster.setNode, and_comm]
  · rw [Roster.peers, nodes, Function.update_self, lookup_evict]
    simp only [Finset.mem_singleton]
    by_cases here : other = roomId
    · subst here
      rw [if_pos rfl]
      refine ite_eq_left_iff.mpr fun unlisted => ?_
      refine Option.eq_none_iff_forall_not_mem.mpr fun entry registered => ?_
      exact unlisted ⟨rfl, all nickname (Finmap.mem_of_lookup_eq_some registered)⟩
    · rw [if_neg here, if_neg fun both => here both.1]
  · rw [Roster.known, nodes, Function.update_self, clears.sessions, Roster.known,
      SessionStore.roomOf]
    cases (roster.nodes node).sessions.bySessionId.lookup sessionId with
    | none => simp
    | some session =>
        obtain ⟨nickname, seat⟩ := session
        cases seat with
        | none => simp [unseat]
        | some seat => by_cases here : seat = roomId <;> simp [unseat, Option.filter, here]
  · simp only [← inside]
    rfl
  · rw [nodes, Function.update_of_ne apart]

end One

/-! ## The runs -/

section Runs

variable {world : World} {state : State} {roomId : RoomId} {sfuAddr : Address} {reason : String}

/-- All participants are unregistered. -/
theorem unregister_all (nicknames : List Nickname) :
    (nicknames.forM (state.unregister roomId)).Ensures World.exec world
      (Leaves () (world.roster.withPeers state.node (evict roomId nicknames))) := by
  induction nicknames generalizing world with
  | nil =>
      refine ensures_ret.mpr ⟨rfl, ?_⟩
      simp [Roster.withPeers, Roster.setNode, evict]
  | cons nickname nicknames ih =>
      refine leaves_bind (unregister_leaves (fun _ _ _ _ => id) state roomId nickname)
        fun middle same => ih.mono ?_
      rintro _ after ⟨rfl, left⟩
      refine ⟨rfl, left.trans ?_⟩
      rw [same]
      simp [Roster.withPeers, Roster.setNode, evict]

/-- The sessions are recorded to have no room, one after the other. -/
theorem clearRedisRoom_all (sessionIds : List SessionId) :
    (sessionIds.forM State.clearRedisRoom).Ensures World.exec world
      (Leaves () (unrecord sessionIds world.roster)) := by
  induction sessionIds generalizing world with
  | nil => exact ensures_ret.mpr ⟨rfl, rfl⟩
  | cons sessionId sessionIds ih =>
      have clears : (State.clearRedisRoom sessionId).Ensures World.exec world
          (Leaves () (world.roster.hset sessionId "room_id" "")) := by
        refine leaves_bind (hset_leaves (fun _ _ _ _ => id) sessionId "room_id" "") ?_
        exact fun middle same => ensures_ret.mpr ⟨rfl, same⟩
      refine leaves_bind clears fun middle same => ih.mono ?_
      rintro _ after ⟨rfl, left⟩
      rw [same] at left
      exact ⟨rfl, left⟩

/-- The members of the room are deleted. -/
theorem deleteRoom_leaves : (deleteRoom roomId).run.Ensures World.exec world
    (Leaves (.ok ()) { world.roster with
      members := world.roster.members.filter (·.1 ≠ roomId) }) := by
  have deletes : (redisCommand RedisRoomError.ofFailure (.delMembers roomId)).run.Ensures
      World.exec world fun result after => (∃ count, result = .ok count) ∧ after.roster =
        { world.roster with members := world.roster.members.filter (·.1 ≠ roomId) } := by
    refine ensures_command (fun _ _ _ _ => id) ?_
    rintro count _ ⟨-, rfl⟩
    exact ⟨⟨count, rfl⟩, rfl⟩
  refine deletes.except_bind (fun count middle left => ?_) fun error middle left => ?_
  · exact ensures_except_pure.mpr ⟨rfl, left.2⟩
  · cases left.1.choose_spec

/-- The sessions of a room are emptied, and those it held are returned. -/
theorem clearSessionRoom_ensures (index : (world.nodes state.node).sessions.Exact) :
    (state.clearSessionRoom roomId).Ensures World.exec world fun sessionIds after =>
      ∃ sessions, SessionStore.Cleared (world.nodes state.node).sessions roomId sessionIds
          sessions ∧ sessions.Exact ∧
        after.roster = world.roster.withSessions state.node fun _ => sessions := by
  refine ensures_issue (fun _ _ _ _ => id) ?_
  rintro reply _ ⟨sessions, ⟨sessionIds, all, same⟩, rfl⟩
  obtain ⟨rfl, rfl⟩ := Prod.mk.inj same
  obtain ⟨clears, exact⟩ := index.clearRoom all
  exact ⟨_, clears, exact, rfl⟩

/-- One bound room with peers is closed. -/
theorem closeRoom_ensures (sound : Sound state.node world.roster)
    (hosts : roomId ∈ hosted state.node world.roster)
    (isBound : (world.roster.bindings.lookup roomId).isSome) {participants : List Nickname}
    (all : ∀ nickname, (roomId, nickname) ∈ world.roster.peers state.node →
      nickname ∈ participants) :
    (state.closeRoom roomId participants reason).Ensures World.exec world fun _ after =>
      Closed state.node {roomId} world.roster after.roster ∧ Sound state.node after.roster := by
  have tells : (state.broadcastToRoom roomId none (.roomClosed roomId reason)).Only World.Silent :=
    State.broadcastToRoom_only trivial fun _ => trivial
  refine (ensures_silent (fun _ _ _ _ => id) tells).bind fun stale told same => ?_
  refine leaves_bind (unregister_all participants) fun first left => ?_
  refine leaves_bind (unregister_all stale) fun second left' => ?_
  have evicted : second.roster =
      world.roster.withPeers state.node (evict roomId (participants ++ stale)) := by
    rw [left', left, same]
    simp [Roster.withPeers, Roster.setNode, evict]
  have sessions_eq : (second.nodes state.node).sessions =
      (world.nodes state.node).sessions := by
    have nodes : second.nodes state.node = _ := congrFun (congrArg Roster.nodes evicted) state.node
    rw [nodes]
    simp [Roster.withPeers, Roster.setNode, World.roster]
  refine (clearSessionRoom_ensures (sessions_eq ▸ sound.index)).bind ?_
  rintro sessionIds third ⟨sessions, clears, exact, emptied⟩
  rw [sessions_eq] at clears
  rw [evicted] at emptied
  have closed := closed_cleared sound hosts isBound
    (fun nickname registered => List.mem_append_left stale (all nickname registered)) clears
  refine leaves_bind (isRedisAvailable_leaves fun _ _ _ _ => id) fun fourth available => ?_
  refine (closeRoomBinding_ensures (fun _ _ _ _ => id) roomId).bind fun _ fifth unbound => ?_
  refine deleteRoom_leaves.bind ?_
  rintro _ sixth ⟨-, deleted⟩
  refine (clearRedisRoom_all sessionIds).mono ?_
  rintro _ after ⟨-, last⟩
  have after_eq : after.roster =
      cleared state.node roomId (participants ++ stale) sessionIds sessions world.roster := by
    rw [last, deleted, unbound, available, emptied]
    rfl
  rw [after_eq]
  refine ⟨closed, sound.closed closed ?_⟩
  rw [nodes_cleared clears.once, Function.update_self]
  exact exact

/-- The binding the script writes can be read. -/
theorem ofFields_written {hash : Hash} (written : Written hash) :
    ∃ route, RoomRoute.ofFields hash.fields = .ok route ∧
      route.sfuGrpcAddr = (hash.get "sfu_grpc_addr").filter (· ≠ "") := by
  obtain ⟨ownerHost, ownerId, ownerPort, best, hosts, same⟩ := written
  have host : (hash.fields.lookup "owner_host").filter (· ≠ "") = some ownerHost := by
    rw [← Hash.get, same, Redis.get_newBinding]
    simp [Option.filter, hosts]
  have port : (hash.fields.lookup "owner_port").bind parseU16 = some ownerPort := by
    rw [← Hash.get, same, Redis.get_newBinding]
    exact parseU16_toString ownerPort
  refine ⟨⟨ownerHost, ownerPort, (hash.get "room_state").getD "active", _⟩, ?_, rfl⟩
  rw [RoomRoute.ofFields, if_neg hash.nonempty, host, port]
  rfl

/-- The route of a room gives the address of its SFU. -/
theorem route_cases (sound : Sound state.node world.roster) (roomId : RoomId) :
    (∃ route, world.roster.route roomId = .ok route ∧
      route.sfuGrpcAddr = address world.roster roomId ∧
      (world.roster.bindings.lookup roomId).isSome) ∨
    ∃ error, world.roster.route roomId = .error error ∧ address world.roster roomId = none := by
  cases found : world.roster.bindings.lookup roomId with
  | none =>
      refine .inr ⟨.roomNotFound, ?_, ?_⟩
      · simp only [Roster.route, found]
        rfl
      · simp only [address, found]
        rfl
  | some hash =>
      obtain ⟨route, parsed, addr⟩ := ofFields_written (sound.written roomId hash found)
      refine .inl ⟨route, ?_, ?_, rfl⟩
      · simp only [Roster.route, found]
        exact parsed
      · simp only [address, found]
        exact addr

/-- A room of the snapshot is closed if it is on the SFU, and left alone otherwise. -/
theorem closeRoomIfOnSfu_ensures (sound : Sound state.node world.roster)
    {room : RoomId × List Nickname} (hosts : room.1 ∈ hosted state.node world.roster)
    (all : ∀ nickname, (room.1, nickname) ∈ world.roster.peers state.node → nickname ∈ room.2) :
    (state.closeRoomIfOnSfu sfuAddr reason room).Ensures World.exec world fun _ after =>
      Closed state.node (({room.1} : Finset RoomId).filter
        (address world.roster · = some sfuAddr)) world.roster after.roster ∧
          Sound state.node after.roster := by
  refine leaves_bind (getRoomRoute_leaves (fun _ _ _ _ => id) room.1) fun middle same => ?_
  rw [Finset.filter_singleton]
  rcases route_cases sound room.1 with ⟨route, parsed, addr, isBound⟩ | ⟨error, failed, unknown⟩
  · rw [parsed, ← addr]
    change (if route.sfuGrpcAddr = some sfuAddr then _ else _ : Call Unit).Ensures _ _ _
    rw [← same] at sound hosts all isBound ⊢
    split
    · exact closeRoom_ensures sound hosts isBound all
    · exact ensures_ret.mpr ⟨closed_empty, sound⟩
  · rw [failed, unknown, if_neg nofun, ← same]
    exact ensures_ret.mpr ⟨closed_empty, same ▸ sound⟩

/-- The rooms of a snapshot are closed one after the other. -/
theorem closeRooms_ensures {rooms : List (RoomId × List Nickname)}
    (sound : Sound state.node world.roster) (once : (rooms.map Prod.fst).Nodup)
    (hosts : ∀ room ∈ rooms, room.1 ∈ hosted state.node world.roster)
    (all : ∀ room ∈ rooms, ∀ nickname,
      (room.1, nickname) ∈ world.roster.peers state.node → nickname ∈ room.2) :
    (rooms.forM (state.closeRoomIfOnSfu sfuAddr reason)).Ensures World.exec world fun _ after =>
      Closed state.node ((rooms.map Prod.fst).toFinset.filter
        (address world.roster · = some sfuAddr)) world.roster after.roster ∧
          Sound state.node after.roster := by
  induction rooms generalizing world with
  | nil => exact ensures_ret.mpr ⟨closed_empty, sound⟩
  | cons room rooms ih =>
      obtain ⟨new, once⟩ := List.nodup_cons.mp once
      refine (closeRoomIfOnSfu_ensures sound (hosts room List.mem_cons_self)
        (all room List.mem_cons_self)).bind ?_
      rintro _ middle ⟨closed, kept⟩
      have apart {other : RoomId × List Nickname} (listed : other ∈ rooms) :
          other.1 ∉ ({room.1} : Finset RoomId).filter (address world.roster · = some sfuAddr) := by
        intro member
        obtain same := Finset.mem_singleton.mp (Finset.mem_filter.mp member).1
        exact new (same ▸ List.mem_map_of_mem listed)
      have peers {other : RoomId × List Nickname} (listed : other ∈ rooms) (nickname : Nickname) :
          (other.1, nickname) ∈ middle.roster.peers state.node ↔
            (other.1, nickname) ∈ world.roster.peers state.node := by
        rw [← Finmap.lookup_isSome, ← Finmap.lookup_isSome, closed.peers, if_neg (apart listed)]
      have addresses {other : RoomId × List Nickname} (listed : other ∈ rooms) :
          address middle.roster other.1 = address world.roster other.1 := by
        rw [address, address, closed.bindings, if_neg (apart listed)]
      refine (ih kept once (fun other listed => ?_) fun other listed nickname seated => ?_).mono ?_
      · obtain ⟨nickname, registered⟩ :=
          (mem_hosted _ _).mp (hosts other (List.mem_cons_of_mem _ listed))
        exact (mem_hosted _ _).mpr ⟨nickname, (peers listed nickname).mpr registered⟩
      · exact all other (List.mem_cons_of_mem _ listed) nickname
          ((peers listed nickname).mp seated)
      rintro _ after ⟨others, sound⟩
      have later : (rooms.map Prod.fst).toFinset.filter (address middle.roster · = some sfuAddr) =
          (rooms.map Prod.fst).toFinset.filter (address world.roster · = some sfuAddr) := by
        refine Finset.filter_congr fun roomId member => ?_
        obtain ⟨other, listed, rfl⟩ := List.mem_map.mp (List.mem_toFinset.mp member)
        rw [addresses listed]
      rw [later] at others
      refine ⟨?_, sound⟩
      have both := closed.trans others (Finset.disjoint_filter_filter
        (Finset.disjoint_singleton_left.mpr (mt List.mem_toFinset.mp new)))
      rwa [← Finset.filter_union, ← Finset.insert_eq, ← List.toFinset_cons] at both

/-- **The rooms of an SFU are closed exactly.** Those with a peer on the node are gone from
every table and counted off, everything else is as before, and the tables still agree. -/
theorem closes_lost (state : State) (sfuAddr : Address) (reason : String) (world : World)
    (sound : Sound state.node world.roster) :
    (state.closeRoomsDueToSfuAddr sfuAddr reason).Ensures World.exec world fun _ after =>
      Closed state.node (lost state.node world.roster sfuAddr) world.roster after.roster ∧
        Sound state.node after.roster ∧
          ∀ set, set ≠ .roomLoad → after.redis.scores set = world.redis.scores set := by
  have spares : (state.closeRoomsDueToSfuAddr sfuAddr reason).Only fun op =>
      ∀ set, set ≠ .roomLoad → ¬ op.IsRedis (Command.WritesScores set) := by
    have decrements (instanceId : InstanceId) : (decrementSfuRoomLoad instanceId).run.Only fun op =>
        ∀ set, set ≠ .roomLoad → ¬ op.IsRedis (Command.WritesScores set) :=
      decrementSfuRoomLoad_only (fun _ _ => id) (fun _ _ other same => other same.symm)
        (fun _ _ => id) (fun _ _ => id) fun _ _ _ => id
    refine State.closeRoomsDueToSfuAddr_only (fun _ _ => id) (fun _ _ _ => id) fun _ _ => ?_
    exact State.closeRoom_only (fun _ _ => id) (fun _ _ _ => id) (fun _ _ _ => id) (fun _ _ => id)
      (fun _ _ => id) (closeRoomBinding_only (fun _ _ => id) (fun _ _ => id) decrements)
      (fun _ _ => id) fun _ _ _ => id
  have scores : (state.closeRoomsDueToSfuAddr sfuAddr reason).Ensures World.exec world
      fun _ after => ∀ set, set ≠ .roomLoad → after.redis.scores set = world.redis.scores set := by
    refine spares.ensures (fun op before reply after other same step set apart => ?_) fun _ _ => rfl
    exact ((World.exec_keepsRedis step).scores set (other set apart)).trans (same set apart)
  have closes : (state.closeRoomsDueToSfuAddr sfuAddr reason).Ensures World.exec world
      fun _ after => Closed state.node (lost state.node world.roster sfuAddr) world.roster
        after.roster ∧ Sound state.node after.roster := by
    refine ensures_call.mpr fun rooms listed step => ?_
    obtain ⟨_, ⟨⟨once, complete, each⟩, rfl⟩, same⟩ := step
    have same : listed.roster = world.roster := by
      rw [same]
      simp only [World.roster, World.setNode, Function.update_eq_self]
    have listed_iff (roomId : RoomId) :
        roomId ∈ rooms.map Prod.fst ↔ roomId ∈ hosted state.node world.roster := by
      rw [complete, mem_hosted]
      exact exists_congr fun nickname => PeerRegistry.mem_nicknames _
    have lost_eq : lost state.node world.roster sfuAddr =
        (rooms.map Prod.fst).toFinset.filter (address world.roster · = some sfuAddr) := by
      refine congrArg (Finset.filter _) (Finset.ext fun roomId => ?_)
      rw [List.mem_toFinset, listed_iff]
    rw [lost_eq, ← same]
    rw [← same] at sound listed_iff
    refine closeRooms_ensures sound once (fun room member => ?_) ?_
    · exact (listed_iff room.1).mp (List.mem_map_of_mem member)
    · intro room member nickname registered
      rw [same] at registered
      exact (each room member).mem_iff.mpr ((PeerRegistry.mem_nicknames _).mpr registered)
  exact (closes.and scores).mono fun _ _ holds => ⟨holds.1.1, holds.1.2, holds.2⟩

/-- The tables agree on a deployment with one room of one participant. -/
theorem known_hosted (sessionId : SessionId) :
    DeadSfu.hosted.roster.known sampleNode.node sessionId =
      if sessionId = "session-1" then some ⟨"alice", some "room-1"⟩ else none := by
  have node : DeadSfu.hosted.roster.nodes sampleNode.node = _ := DeadSfu.owner_hosted
  rw [Roster.known, node, SessionStore.lookup_upsert]
  rfl

/-- Alice is the only peer of the sample node. -/
theorem peers_hosted (roomId : RoomId) (nickname : Nickname) :
    (roomId, nickname) ∈ DeadSfu.hosted.roster.peers sampleNode.node ↔
      roomId = "room-1" ∧ nickname = "alice" := by
  have node : DeadSfu.hosted.roster.nodes sampleNode.node = _ := DeadSfu.owner_hosted
  rw [Roster.peers, node]
  exact (Finmap.mem_singleton _ _ _).trans Prod.mk_inj

/-- Her session is the only one with a room. -/
theorem room_hosted (sessionId : SessionId) : DeadSfu.hosted.roster.room sessionId =
    if sessionId = "session-1" then some "room-1" else none := by
  by_cases own : sessionId = "session-1"
  · subst own
    decide +kernel
  · have absent : DeadSfu.hosted.roster.sessions sessionId = none := by
      refine Option.map_eq_none_iff.mpr (Finmap.lookup_eq_none.mpr fun member => own ?_)
      exact (Finmap.mem_singleton _ _ _).mp member
    rw [if_neg own, Roster.room, absent]
    rfl

/-- Her room is the only one that is bound. -/
theorem binding_hosted (roomId : RoomId) : DeadSfu.hosted.roster.bindings.lookup roomId =
    if roomId = "room-1" then
      some (Redis.newBinding "127.0.0.1" "8080" "127.0.0.1:8080" sampleSfu) else none :=
  lookup_insert_if _ _ _ _

/-- The sample roster is sound. -/
theorem sound_hosted : Sound sampleNode.node DeadSfu.hosted.roster := by
  have node : DeadSfu.hosted.roster.nodes sampleNode.node = _ := DeadSfu.owner_hosted
  refine ⟨?_, fun roomId nickname => ?_, fun roomId hosts nickname => ?_,
    fun sessionId session found => ?_, fun sessionId roomId inside hosts => ?_,
    fun roomId hash found => ?_, fun instanceId => ?_⟩
  · rw [node]
    exact SessionStore.exact_empty.upsert ⟨"alice", some "room-1"⟩
  · rw [peers_hosted]
    simp only [known_hosted]
    constructor
    · rintro ⟨rfl, rfl⟩
      exact ⟨"session-1", if_pos rfl⟩
    · rintro ⟨sessionId, found⟩
      split at found
      · cases found
        exact ⟨rfl, rfl⟩
      · cases found
  · rw [peers_hosted]
    exact Finset.mem_singleton.trans Prod.mk_inj
  · rw [known_hosted] at found
    rw [room_hosted]
    split at found
    · rename_i own
      cases found
      exact if_pos own
    · cases found
  · rw [room_hosted] at inside
    rw [known_hosted]
    split at inside
    · rename_i own
      rw [if_pos own]
      rfl
    · cases inside
  · rw [binding_hosted] at found
    split at found
    · cases found
      exact ⟨"127.0.0.1", "127.0.0.1:8080", 8080, sampleSfu, by decide, rfl⟩
    · cases found
  · have exact : RoomLoad.Exact (World.fresh.assignTo "room-1") := by
      have fresh : RoomLoad.Balanced World.fresh 0 := fun _ => rfl
      exact RoomLoad.balanced_zero.mp (fresh.assign rfl)
    exact exact instanceId

/-- The run that closes this room. -/
def closing : List Hint :=
  { rooms := [("room-1", ["alice"])] } :: {} :: { names := ["alice"] } :: {} :: {} ::
    { names := ["session-1"] } :: List.replicate 12 {}

/-- The one room of a deployment is closed with its SFU. -/
theorem closes_lost_hosted : ∃ after, (sampleNode.closeRoomsDueToSfuAddr sampleSfu.grpcAddr
    "sfu_down").Runs World.exec DeadSfu.hosted () after ∧
      Closed sampleNode.node {"room-1"} DeadSfu.hosted.roster after.roster := by
  obtain ⟨_, after, run, -⟩ := World.exists_runs
    (sampleNode.closeRoomsDueToSfuAddr sampleSfu.grpcAddr "sfu_down") DeadSfu.hosted closing
    (fun _ _ => true) (by decide +kernel)
  refine ⟨after, run, ?_⟩
  have closed := ((closes_lost sampleNode sampleSfu.grpcAddr "sfu_down" DeadSfu.hosted
    sound_hosted).holds () after run).1
  have lost_eq : lost sampleNode.node DeadSfu.hosted.roster sampleSfu.grpcAddr = {"room-1"} := by
    decide +kernel
  rwa [lost_eq] at closed

end Runs

end Callifornia.RoomClosing
