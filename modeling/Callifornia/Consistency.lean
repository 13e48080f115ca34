import Callifornia.RoomClosing
import Callifornia.Seats

/-! # One room state in six tables

Which room a session is in is written down six times: in its hash, among the members, as a
registered peer, as a peer of the SFU, as a binding and in the load of an instance. While
sessions have nicknames of their own and no channel is full, the tables agree after every
request.
-/

namespace Callifornia.Consistency

open Concurrency Concurrency.Program FiniteMap Store Signaling
open RoomClosing (Written load bound)
open Seats (Happening)

/-! ## What the tables say -/

/-- **The tables agree** on the rooms of the sessions. -/
structure Consistent (node : NodeId) (roster : Roster) : Prop where
  member : ∀ sessionId, (roster.sessions sessionId).isSome → ∀ roomId,
    roster.room sessionId = some roomId ↔ (roomId, roster.named sessionId) ∈ roster.members
  peer : ∀ sessionId, (roster.sessions sessionId).isSome → ∀ roomId,
    (roomId, roster.named sessionId) ∈ roster.members ↔
      (roomId, roster.named sessionId) ∈ roster.peers node
  held : ∀ sessionId, (roster.sessions sessionId).isSome → ∀ roomId,
    (roomId, roster.named sessionId) ∈ roster.peers node ↔
      ∃ sfuAddr, (sfuAddr, roomId, roster.named sessionId) ∈ roster.sfuPeers
  binding : ∀ roomId, roster.Bound roomId ↔ roster.Occupied roomId
  load : ∀ instanceId, load roster instanceId = (bound roster instanceId).card

/-- No two sessions have one nickname. -/
def Apart (roster : Roster) : Prop :=
  ∀ first second, (roster.sessions first).isSome → (roster.sessions second).isSome →
    roster.named first = roster.named second → first = second

/-- There may be sessions, but none is in a room and there are no rooms. -/
structure Blank (node : NodeId) (roster : Roster) : Prop where
  rooms : ∀ sessionId, roster.room sessionId = none
  apart : Apart roster
  issued : ∀ sessionId, (roster.sessions sessionId).isSome → sessionId ∈ roster.issued
  known : ∀ sessionId, roster.known node sessionId = none
  members : roster.members = ∅
  peers : roster.peers node = ∅
  sfuPeers : roster.sfuPeers = ∅
  bindings : roster.bindings = ∅
  loads : ∀ instanceId, load roster instanceId = 0

/-- A session of this nickname is in the room. -/
def Sits (roster : Roster) (roomId : RoomId) (nickname : Nickname) : Prop :=
  ∃ sessionId, roster.room sessionId = some roomId ∧ roster.named sessionId = nickname

/-- The tables follow the session hashes. A session may be about to be registered, and a room
about to be entered for the first time. -/
structure Kept (node : NodeId) (standing : Option SessionId) (opening : Option RoomId)
    (roster : Roster) : Prop where
  apart : Apart roster
  issued : ∀ sessionId, (roster.sessions sessionId).isSome → sessionId ∈ roster.issued
  known : ∀ sessionId session, roster.known node sessionId = some session →
    roster.session sessionId = some session
  members : ∀ roomId nickname, (roomId, nickname) ∈ roster.members ↔ Sits roster roomId nickname
  peers : ∀ roomId nickname, (roomId, nickname) ∈ roster.peers node ↔
    ∃ sessionId, roster.room sessionId = some roomId ∧ roster.named sessionId = nickname ∧
      standing ≠ some sessionId
  sfuPeers : ∀ sfuAddr roomId nickname, (sfuAddr, roomId, nickname) ∈ roster.sfuPeers ↔
    Sits roster roomId nickname ∧ roster.sfuAddr roomId = some sfuAddr
  bound : ∀ roomId, roster.Bound roomId ↔ roster.Occupied roomId ∨ opening = some roomId
  routed : ∀ roomId, roster.Bound roomId → ∃ sfuAddr, roster.sfuAddr roomId = some sfuAddr
  drawn : ∀ roomId, roster.Bound roomId → roomId ∈ roster.issued ∧ roomId ≠ ""
  written : ∀ roomId, ∀ hash ∈ roster.bindings.lookup roomId, Written hash
  loads : ∀ instanceId, load roster instanceId = (RoomClosing.bound roster instanceId).card
  /-- A registered peer listens on a connection of its own session. -/
  wired : ∀ roomId nickname entry, (roster.peers node).lookup (roomId, nickname) = some entry →
    roster.listening entry.sender = true ∧ ∃ sessionId,
      roster.attached entry.sender = some sessionId ∧ roster.room sessionId = some roomId ∧
        roster.named sessionId = nickname

variable {node : NodeId} {standing : Option SessionId} {opening : Option RoomId}
  {before after roster : Roster} {connection : ConnectionId} {sessionId : SessionId}
  {session : SessionState} {roomId : RoomId} {nickname : Nickname} {sfuAddr : Address}

/-- A session with a room has a hash. -/
theorem isSome_of_room (room : roster.room sessionId = some roomId) :
    (roster.sessions sessionId).isSome := by
  cases found : roster.sessions sessionId with
  | some hash => rfl
  | none =>
      rw [Roster.room, found] at room
      cases room

/-- A nickname is in a room where its only session is. -/
theorem sits_iff (apart : Apart roster) (exists_ : (roster.sessions sessionId).isSome) :
    Sits roster roomId (roster.named sessionId) ↔ roster.room sessionId = some roomId := by
  constructor
  · rintro ⟨other, room, named⟩
    rwa [← apart other sessionId (isSome_of_room room) exists_ named]
  · exact fun room => ⟨sessionId, room, rfl⟩

/-- Where no room is about to be entered, the bound rooms have members. -/
theorem Kept.bound_iff (kept : Kept node standing none roster) (roomId : RoomId) :
    roster.Bound roomId ↔ roster.Occupied roomId :=
  (kept.bound roomId).trans (or_iff_left nofun)

/-- Where the tables follow the hashes they agree. -/
theorem Kept.consistent (kept : Kept node none none roster) : Consistent node roster := by
  have peer_iff (roomId : RoomId) (nickname : Nickname) :
      (roomId, nickname) ∈ roster.peers node ↔ Sits roster roomId nickname := by
    rw [kept.peers]
    exact exists_congr fun sessionId => and_congr_right fun _ => and_iff_left nofun
  refine ⟨fun sessionId there roomId => ?_, fun sessionId there roomId => ?_,
    fun sessionId there roomId => ?_, kept.bound_iff, kept.loads⟩
  · rw [kept.members, sits_iff kept.apart there]
  · rw [kept.members, peer_iff]
  · rw [peer_iff]
    constructor
    · intro sits
      have isBound := (kept.bound roomId).mpr (.inl ⟨_, (kept.members roomId _).mpr sits⟩)
      obtain ⟨sfuAddr, addr⟩ := kept.routed roomId isBound
      exact ⟨sfuAddr, (kept.sfuPeers sfuAddr roomId _).mpr ⟨sits, addr⟩⟩
    · rintro ⟨sfuAddr, holds⟩
      exact ((kept.sfuPeers sfuAddr roomId _).mp holds).1

/-- A blank node follows the hashes. -/
theorem Blank.kept (blank : Blank node roster) : Kept node none none roster := by
  have nobody (roomId : RoomId) (nickname : Nickname) : ¬ Sits roster roomId nickname := by
    rintro ⟨sessionId, room, -⟩
    rw [blank.rooms] at room
    cases room
  have unbound (roomId : RoomId) : roster.bindings.lookup roomId = none := by
    rw [blank.bindings]
    rfl
  have notBound (roomId : RoomId) : ¬ roster.Bound roomId := by
    rw [Roster.Bound, unbound]
    exact Bool.false_ne_true
  refine ⟨blank.apart, blank.issued, ?_, ?_, ?_, ?_, ?_, ?_, ?_, ?_, ?_, ?_⟩
  · intro sessionId session known
    rw [blank.known] at known
    cases known
  · intro roomId nickname
    rw [blank.members]
    exact iff_of_false (Finset.notMem_empty _) (nobody roomId nickname)
  · intro roomId nickname
    rw [blank.peers]
    refine iff_of_false (Finmap.notMem_empty) ?_
    rintro ⟨sessionId, room, -⟩
    exact nobody roomId _ ⟨sessionId, room, rfl⟩
  · intro sfuAddr roomId nickname
    rw [blank.sfuPeers]
    exact iff_of_false (Finset.notMem_empty _) fun both => nobody roomId nickname both.1
  · intro roomId
    refine iff_of_false (notBound roomId) ?_
    rintro (⟨nickname, member⟩ | impossible)
    · rw [blank.members] at member
      exact Finset.notMem_empty _ member
    · cases impossible
  · exact fun roomId isBound => absurd isBound (notBound roomId)
  · exact fun roomId isBound => absurd isBound (notBound roomId)
  · intro roomId hash found
    rw [unbound] at found
    cases found
  · intro instanceId
    rw [blank.loads, RoomClosing.bound, blank.bindings]
    rfl
  · intro roomId nickname entry found
    rw [blank.peers] at found
    cases found

/-! ## Changes that concern no room -/

/-- The sessions in rooms are where they were, and so are the tables. -/
structure Still (node : NodeId) (before after : Roster) : Prop where
  room : ∀ sessionId, after.room sessionId = before.room sessionId
  named : ∀ sessionId, before.room sessionId ≠ none →
    after.named sessionId = before.named sessionId
  issued : before.issued ⊆ after.issued
  members : after.members = before.members
  peers : after.peers node = before.peers node
  sfuPeers : after.sfuPeers = before.sfuPeers
  bindings : after.bindings = before.bindings
  loads : after.loads = before.loads
  wired : ∀ connection sessionId, before.attached connection = some sessionId →
    before.room sessionId ≠ none → after.attached connection = some sessionId ∧
      after.listening connection = before.listening connection

/-- Sessions in no room may come and go. -/
theorem Kept.still (kept : Kept node standing opening before) (still : Still node before after)
    (apart : Apart after)
    (issued : ∀ sessionId, (after.sessions sessionId).isSome → sessionId ∈ after.issued)
    (known : ∀ sessionId session, after.known node sessionId = some session →
      after.session sessionId = some session) : Kept node standing opening after := by
  have inside_iff (sessionId : SessionId) (roomId : RoomId) (nickname : Nickname) :
      after.room sessionId = some roomId ∧ after.named sessionId = nickname ↔
        before.room sessionId = some roomId ∧ before.named sessionId = nickname := by
    rw [still.room]
    refine and_congr_right fun room => ?_
    rw [still.named sessionId (by rw [room]; nofun)]
  have sits (roomId : RoomId) (nickname : Nickname) :
      Sits after roomId nickname ↔ Sits before roomId nickname :=
    exists_congr fun sessionId => inside_iff sessionId roomId nickname
  have isBound (roomId : RoomId) : after.Bound roomId ↔ before.Bound roomId := by
    rw [Roster.Bound, Roster.Bound, still.bindings]
  have occupied (roomId : RoomId) : after.Occupied roomId ↔ before.Occupied roomId := by
    rw [Roster.Occupied, Roster.Occupied, still.members]
  have addr (roomId : RoomId) : after.sfuAddr roomId = before.sfuAddr roomId :=
    Roster.sfuAddr_congr still.bindings
  refine ⟨apart, issued, known, ?_, ?_, ?_, ?_, ?_, ?_, ?_, ?_, ?_⟩
  · intro roomId nickname
    rw [still.members, sits, kept.members]
  · intro roomId nickname
    rw [still.peers, kept.peers]
    refine exists_congr fun sessionId => ?_
    rw [← and_assoc, ← and_assoc, inside_iff]
  · intro sfuAddr roomId nickname
    rw [still.sfuPeers, sits, addr, kept.sfuPeers]
  · intro roomId
    rw [isBound, occupied, kept.bound]
  · intro roomId
    rw [isBound, addr]
    exact kept.routed roomId
  · intro roomId bound
    obtain ⟨drawn, nonempty⟩ := kept.drawn roomId ((isBound roomId).mp bound)
    exact ⟨still.issued drawn, nonempty⟩
  · rw [still.bindings]
    exact kept.written
  · intro instanceId
    rw [load, RoomClosing.bound, still.loads, still.bindings]
    exact kept.loads instanceId
  · intro roomId nickname entry found
    rw [still.peers] at found
    obtain ⟨listens, sessionId, attached, inside⟩ := kept.wired roomId nickname entry found
    obtain ⟨stays, same⟩ := still.wired entry.sender sessionId attached (by rw [inside.1]; nofun)
    exact ⟨same.trans listens, sessionId, stays, (inside_iff sessionId roomId nickname).mpr inside⟩

/-- Nor have sessions come or gone; what the node remembers is in a hash. -/
structure Like (node : NodeId) (before after : Roster) : Prop extends Still node before after where
  sessions : ∀ sessionId, (after.sessions sessionId).isSome = (before.sessions sessionId).isSome
  called : ∀ sessionId, after.named sessionId = before.named sessionId
  known : ∀ sessionId session, after.known node sessionId = some session →
    before.known node sessionId = some session ∨ before.session sessionId = some session

/-- What is like a roster that is followed is followed. -/
theorem Kept.like (kept : Kept node standing opening before) (like : Like node before after) :
    Kept node standing opening after := by
  refine kept.still like.toStill ?_ ?_ ?_
  · intro first second
    rw [like.sessions, like.sessions, like.called, like.called]
    exact kept.apart first second
  · intro sessionId there
    rw [like.sessions] at there
    exact like.issued (kept.issued sessionId there)
  · intro sessionId session known
    have found : before.session sessionId = some session :=
      (like.known sessionId session known).elim (kept.known sessionId session) id
    rw [Roster.session_eq_some] at found ⊢
    rw [like.sessions, like.called, like.room]
    exact found

/-- A roster is like itself. -/
theorem like_refl (roster : Roster) : Like node roster roster :=
  ⟨⟨fun _ => rfl, fun _ _ => rfl, Finset.Subset.refl _, rfl, rfl, rfl, rfl, rfl,
    fun _ _ attached _ => ⟨attached, rfl⟩⟩, fun _ => rfl, fun _ => rfl, fun _ _ => .inl⟩

/-- Drawing an id concerns no table. -/
theorem like_draw (id : String) : Like node roster (roster.draw id) :=
  { like_refl roster with issued := Finset.subset_insert _ _ }

/-- A connection attaches to its own session, or loses one that is in no room. -/
theorem like_attach {target : Option SessionId}
    (own : ∀ sessionId ∈ roster.attached connection,
      target = some sessionId ∨ roster.room sessionId = none) :
    Like node roster (roster.attach connection target) := by
  refine { like_refl roster with wired := fun other sessionId attached inside => ⟨?_, rfl⟩ }
  change Function.update roster.attached connection target other = some sessionId
  by_cases same : other = connection
  · rw [same, Function.update_self]
    rw [same] at attached
    exact (own sessionId attached).resolve_right inside
  · rw [Function.update_of_ne same, attached]

/-- What the node remembers changes. -/
theorem like_withSessions {change : SessionStore → SessionStore}
    (knows : ∀ sessionId session,
      (change (roster.nodes node).sessions).bySessionId.lookup sessionId = some session →
        roster.known node sessionId = some session ∨ roster.session sessionId = some session) :
    Like node roster (roster.withSessions node change) := by
  have same : Like node roster roster := like_refl roster
  refine { same with
    peers := Roster.peers_withSessions
    known := fun sessionId session known => ?_ }
  rw [Roster.known_withSessions, if_pos rfl] at known
  exact knows sessionId session known

/-- Removing an entry of the node's table leaves the roster alike. -/
theorem like_remove (sessionId : SessionId) :
    Like node roster (roster.withSessions node (·.remove sessionId)) := by
  refine like_withSessions fun query session known => ?_
  rw [SessionStore.lookup_remove] at known
  split at known
  · cases known
  · exact .inl known

/-- A field of a session that is neither its nickname nor its room. -/
theorem like_hset {field value : String} (there : (roster.sessions sessionId).isSome)
    (nickname : field ≠ "nickname") (room : field ≠ "room_id") :
    Like node roster (roster.hset sessionId field value) := by
  refine { like_refl roster with
    sessions := fun query => ?_
    named := fun query _ => Roster.named_hset nickname query
    called := Roster.named_hset nickname
    room := Roster.room_hset room }
  rw [Roster.sessions_hset]
  split
  · rename_i same
    rw [same, there]
    rfl
  · rfl

/-- A session is looked up. -/
theorem Kept.check (kept : Kept node standing opening roster)
    (found : roster.session sessionId = some session)
    (free : ∀ other ∈ roster.attached connection, other = sessionId) :
    Kept node standing opening (roster.check node connection sessionId session) := by
  have attached : Kept node standing opening (roster.attach connection (some sessionId)) :=
    kept.like (like_attach fun other own => .inl (congrArg some (free other own).symm))
  refine attached.like (like_withSessions fun query known lookup => ?_)
  rw [SessionStore.lookup_upsert] at lookup
  split at lookup
  · rename_i same
    cases lookup
    rw [same]
    exact .inr found
  · exact .inl lookup

/-- Between two requests nothing happens to the rooms. -/
theorem like_idles (idles : before.Idles after) : Like node before after where
  sessions sessionId := by rw [idles.sessions]
  named sessionId _ := by rw [Roster.named, Roster.named, idles.sessions]
  called sessionId := by rw [Roster.named, Roster.named, idles.sessions]
  room sessionId := by rw [Roster.room, Roster.room, idles.sessions]
  known sessionId session known := by
    rw [Roster.known, idles.nodes] at known
    exact .inl known
  issued := idles.issued
  members := idles.members
  peers := by rw [Roster.peers, Roster.peers, idles.nodes]
  sfuPeers := idles.sfuPeers
  bindings := idles.bindings
  loads := idles.loads
  wired connection sessionId attached _ := by
    refine ⟨?_, idles.listening connection ?_⟩
    · rw [idles.attached, attached]
    · rw [attached]
      exact Option.some_ne_none _

/-! ## A session leaves its room -/

/-- Closing a room counts it off. -/
theorem counts_close (written : ∀ roomId, ∀ hash ∈ roster.bindings.lookup roomId, Written hash)
    (counts : ∀ instanceId, load roster instanceId = (bound roster instanceId).card)
    (isBound : roster.Bound roomId) (instanceId : InstanceId) :
    load (roster.close roomId) instanceId = (bound (roster.close roomId) instanceId).card := by
  obtain ⟨hash, found⟩ := Option.isSome_iff_exists.mp isBound
  have erased : bound (roster.close roomId) instanceId = bound roster instanceId \ {roomId} := by
    rw [Finset.sdiff_singleton_eq_erase]
    exact support_erase roster.bindings roomId
  have fewer : ({roomId} ∩ bound roster instanceId).card ≤ (bound roster instanceId).card :=
    Finset.card_le_card Finset.inter_subset_right
  rw [RoomClosing.load_close found (written roomId hash found) counts, counts, erased,
    Finset.card_sdiff]
  omega

/-- Closing a room takes its binding. -/
theorem lookup_close (other : RoomId) : (roster.close roomId).bindings.lookup other =
    if other = roomId then none else roster.bindings.lookup other :=
  lookup_erase_if roster.bindings roomId other

section Leave

variable (kept : Kept node standing none before) (room : before.room sessionId = some roomId)
  (named : before.named sessionId = nickname)
  (left : after = before.leave node sessionId roomId nickname [])

include left

/-- The room of every session after one has left. -/
theorem room_left (query : SessionId) :
    after.room query = if query = sessionId then none else before.room query := by
  rw [left, Seats.leave_nil, Roster.room_setRoom none nofun]
  split
  · rfl
  · rw [Roster.room, Roster.room, Roster.keeps_detach.sessions]

/-- A leave keeps every nickname. -/
theorem named_left (query : SessionId) : after.named query = before.named query := by
  rw [left, Seats.leave_nil, Roster.named_setRoom, Roster.named, Roster.named,
    Roster.keeps_detach.sessions]

/-- A leave takes the room out of the entry. -/
theorem known_left (query : SessionId) : after.known node query =
    if query = sessionId then (before.known node sessionId).map ({ · with roomId := none })
    else before.known node query := by
  rw [left, Seats.leave_nil, Seats.known_setRoom, Roster.keeps_detach.known,
    Roster.keeps_detach.known]

/-- A leave takes the peer out of the registry. -/
theorem peers_left : after.peers node = (before.peers node).erase (roomId, nickname) := by
  rw [left, Seats.leave_nil, Seats.peers_setRoom, Roster.peers_detach, if_pos rfl]

include room in
/-- A leave keeps every session. -/
theorem sessions_left (query : SessionId) :
    (after.sessions query).isSome = (before.sessions query).isSome := by
  rw [left]
  change (((before.detach node roomId nickname).hset sessionId "room_id" "").sessions
    query).isSome = _
  rw [Roster.sessions_hset, Roster.keeps_detach.sessions]
  split
  · rename_i same
    rw [same, isSome_of_room room]
    rfl
  · rfl

include kept room named

omit left in
/-- Whoever sits in a room is a member of it, and its room is bound. -/
theorem Kept.seat : (roomId, nickname) ∈ before.members ∧ before.Bound roomId := by
  have member := (kept.members roomId nickname).mpr ⟨sessionId, room, named⟩
  exact ⟨member, (kept.bound roomId).mpr (.inl ⟨_, member⟩)⟩

/-- The others keep their seats. -/
theorem sits_left (other : RoomId) (name : Nickname) : Sits after other name ↔
    (other, name) ≠ (roomId, nickname) ∧ Sits before other name := by
  constructor
  · rintro ⟨query, inside, called⟩
    rw [room_left left] at inside
    rw [named_left left] at called
    split at inside
    · cases inside
    · rename_i apart
      refine ⟨fun same => apart ?_, query, inside, called⟩
      obtain ⟨-, rfl⟩ := Prod.mk.inj same
      exact kept.apart query sessionId (isSome_of_room inside) (isSome_of_room room)
        (called.trans named.symm)
  · rintro ⟨apart, query, inside, called⟩
    refine ⟨query, ?_, (named_left left query).trans called⟩
    rw [room_left left, if_neg, inside]
    rintro rfl
    rw [room] at inside
    cases inside
    exact apart (Prod.ext rfl (called.symm.trans named))

/-- A leave takes the member out. -/
theorem members_left : after.members = before.members.erase (roomId, nickname) := by
  rw [left]
  change (before.detach node roomId _).members = _
  rw [Roster.members_detach, if_pos (kept.seat room named).2]

/-- The room that is left is closed if that was its last member. -/
theorem closed_left :
    (¬ after.Occupied roomId ∧ after.bindings = (before.close roomId).bindings ∧
      after.loads = (before.close roomId).loads) ∨
    (after.Occupied roomId ∧ after.bindings = before.bindings ∧ after.loads = before.loads) := by
  subst left
  rcases @Roster.detach_cases before node roomId nickname with
    ⟨⟨-, empty⟩, bindings, loads⟩ | ⟨occupied, bindings, loads⟩
  · exact .inl ⟨empty, bindings, loads⟩
  · obtain ⟨member, isBound⟩ := kept.seat room named
    refine .inr ⟨?_, bindings, loads⟩
    by_contra empty
    exact occupied ⟨⟨isBound, member⟩, empty⟩

/-- The bindings of the rooms with members are as they were. -/
theorem lookup_left {other : RoomId} (occupied : after.Occupied other) :
    after.bindings.lookup other = before.bindings.lookup other := by
  rcases closed_left kept room named left with ⟨empty, bindings, -⟩ | ⟨-, bindings, -⟩
  · rw [bindings, lookup_close, if_neg]
    rintro rfl
    exact empty occupied
  · rw [bindings]

/-- A room that is still bound was bound before and has members. -/
theorem bound_left (other : RoomId) : after.Bound other ↔ after.Occupied other := by
  have members := members_left kept room named left
  have elsewhere (apart : other ≠ roomId) : after.Occupied other ↔ before.Occupied other := by
    refine exists_congr fun name => ?_
    rw [members, Finset.mem_erase]
    exact and_iff_right fun same => apart (Prod.mk.inj same).1
  have bound_iff := kept.bound_iff other
  rcases closed_left kept room named left with ⟨empty, bindings, -⟩ | ⟨occupied, bindings, -⟩
  · rw [Roster.Bound, bindings, lookup_close]
    split
    · rename_i same
      rw [same]
      exact iff_of_false Bool.false_ne_true empty
    · rename_i apart
      exact bound_iff.trans (elsewhere apart).symm
  · rw [Roster.Bound, bindings]
    by_cases apart : other = roomId
    · rw [apart]
      exact iff_of_true (kept.seat room named).2 occupied
    · exact bound_iff.trans (elsewhere apart).symm

omit named in
/-- The sessions in memory have left with their hashes. -/
theorem Kept.known_left (query : SessionId) (session : SessionState)
    (known : after.known node query = some session) : after.session query = some session := by
  refine Roster.session_eq_some.mpr ?_
  rw [sessions_left room left, named_left left, room_left left]
  rw [Consistency.known_left left] at known
  split at known
  · rename_i same
    obtain ⟨earlier, was, rfl⟩ := Option.map_eq_some_iff.mp known
    obtain ⟨there, called, -⟩ := Roster.session_eq_some.mp (kept.known sessionId earlier was)
    rw [same, if_pos rfl]
    exact ⟨there, called, rfl⟩
  · rename_i apart
    rw [if_neg apart]
    exact Roster.session_eq_some.mp (kept.known query session known)

/-- The SFU has let the peer go, and holds the others. -/
theorem sfuPeers_left (sfuAddr : Address) (other : RoomId) (name : Nickname) :
    (sfuAddr, other, name) ∈ after.sfuPeers ↔
      (other, name) ≠ (roomId, nickname) ∧ (sfuAddr, other, name) ∈ before.sfuPeers := by
  obtain ⟨own, addr⟩ := kept.routed roomId (kept.seat room named).2
  have sfuPeers : after.sfuPeers = before.sfuPeers.erase (own, roomId, nickname) := by
    rw [left]
    change (before.detach node roomId nickname).sfuPeers = _
    rw [Roster.sfuPeers_detach, addr]
  rw [sfuPeers, Finset.mem_erase]
  refine and_congr_left fun held => not_congr ⟨fun same => ?_, fun same => ?_⟩
  · exact (Prod.mk.inj same).2
  · have other_addr := ((kept.sfuPeers sfuAddr other name).mp held).2
    obtain ⟨rfl, rfl⟩ := Prod.mk.inj same
    rw [addr] at other_addr
    rw [Option.some.inj other_addr]

/-- A session leaves its room. -/
theorem Kept.leave (own : standing = none ∨ standing = some sessionId) :
    Kept node none none after := by
  have sits := sits_left kept room named left
  have members := members_left kept room named left
  have bound_iff := bound_left kept room named left
  have issued : after.issued = before.issued := by
    rw [left]
    exact (@Roster.keeps_detach before node roomId nickname).issued
  have lookup (other : RoomId) (isBound : after.Bound other) :
      after.bindings.lookup other = before.bindings.lookup other :=
    lookup_left kept room named left ((bound_iff other).mp isBound)
  have stays (other : RoomId) (isBound : after.Bound other) : before.Bound other := by
    rwa [Roster.Bound, ← lookup other isBound]
  have elsewhere {query : SessionId} {other : RoomId} {name : Nickname}
      (inside : before.room query = some other) (called : before.named query = name)
      (apart : (other, name) ≠ (roomId, nickname)) : query ≠ sessionId := by
    rintro rfl
    rw [room] at inside
    cases inside
    exact apart (Prod.ext rfl (called.symm.trans named))
  constructor
  · intro first second
    rw [sessions_left room left, sessions_left room left, named_left left, named_left left]
    exact kept.apart first second
  · intro query there
    rw [sessions_left room left] at there
    rw [issued]
    exact kept.issued query there
  · exact kept.known_left room left
  · intro other name
    rw [members, Finset.mem_erase, kept.members, sits]
  · intro other name
    have everybody : (∃ query, after.room query = some other ∧ after.named query = name ∧
        (none : Option SessionId) ≠ some query) ↔ Sits after other name :=
      exists_congr fun query => and_congr_right fun _ => and_iff_left (Option.some_ne_none _).symm
    rw [peers_left left, Finmap.mem_erase, kept.peers, everybody, sits]
    refine and_congr_right fun apart => exists_congr fun query => and_congr_right fun inside => ?_
    refine and_iff_left_of_imp fun called same => ?_
    rcases own with none | some
    · rw [none] at same
      cases same
    · rw [some] at same
      exact elsewhere inside called apart (Option.some.inj same).symm
  · intro sfuAddr other name
    rw [sfuPeers_left kept room named left, sits, kept.sfuPeers, and_assoc]
    refine and_congr_right fun apart => and_congr_right fun inside => ?_
    have occupied : after.Occupied other := by
      refine ⟨name, ?_⟩
      rw [members, Finset.mem_erase, kept.members]
      exact ⟨apart, inside⟩
    rw [Roster.sfuAddr_eq (lookup_left kept room named left occupied)]
  · intro other
    rw [bound_iff]
    exact (or_iff_left (Option.some_ne_none _).symm).symm
  · intro other isBound
    rw [Roster.sfuAddr_eq (lookup other isBound)]
    exact kept.routed other (stays other isBound)
  · intro other isBound
    rw [issued]
    exact kept.drawn other (stays other isBound)
  · intro other hash found
    have isBound : after.Bound other := Option.isSome_of_mem found
    rw [lookup other isBound] at found
    exact kept.written other hash found
  · intro instanceId
    rcases closed_left kept room named left with ⟨-, bindings, loads⟩ | ⟨-, bindings, loads⟩
    · rw [load, RoomClosing.bound, loads, bindings]
      exact counts_close kept.written kept.loads (kept.seat room named).2 instanceId
    · rw [load, RoomClosing.bound, loads, bindings]
      exact kept.loads instanceId
  · intro other name entry found
    rw [peers_left left] at found
    have apart : (other, name) ≠ (roomId, nickname) := by
      intro same
      rw [same, Finmap.lookup_erase] at found
      cases found
    rw [Finmap.lookup_erase_ne apart] at found
    obtain ⟨listens, query, attached, inside, called⟩ := kept.wired other name entry found
    refine ⟨?_, query, ?_, ?_, ?_⟩
    · rw [left]
      exact (congrFun Roster.keeps_detach.listening _).trans listens
    · rw [left]
      exact (congrFun Roster.keeps_detach.attached _).trans attached
    · rw [room_left left, if_neg (elsewhere inside called apart), inside]
    · rw [named_left left, called]

end Leave

/-! ## A session enters a room -/

section Enter

variable (kept : Kept node none opening before)
  (entered : after = (before.enter sfuAddr roomId nickname).setRoom node sessionId (some roomId))
  (nonempty : roomId ≠ "")

include entered

/-- Entering a room keeps every nickname. -/
theorem named_entered (query : SessionId) : after.named query = before.named query := by
  rw [entered, Roster.named_setRoom]
  rfl

/-- Entering a room is recorded in the entry. -/
theorem known_entered (query : SessionId) : after.known node query =
    if query = sessionId then (before.known node sessionId).map ({ · with roomId := some roomId })
    else before.known node query := by
  rw [entered, Seats.known_setRoom]
  rfl

/-- Entering a room makes no session. -/
theorem sessions_entered (there : (before.sessions sessionId).isSome) (query : SessionId) :
    (after.sessions query).isSome = (before.sessions query).isSome := by
  rw [entered]
  change (((before.enter sfuAddr roomId nickname).hset sessionId "room_id" roomId).sessions
    query).isSome = _
  rw [Roster.sessions_hset]
  split
  · rename_i same
    rw [same, there]
    rfl
  · rfl

include nonempty

/-- Entering a room is recorded in the hash. -/
theorem room_entered (query : SessionId) :
    after.room query = if query = sessionId then some roomId else before.room query := by
  rw [entered, Roster.room_setRoom (some roomId) fun same => nonempty (Option.some.inj same)]
  rfl

/-- The session has a new seat, and the others have theirs. -/
theorem sits_entered (outside : before.room sessionId = none)
    (named : before.named sessionId = nickname) (other : RoomId) (name : Nickname) :
    Sits after other name ↔ (other, name) = (roomId, nickname) ∨ Sits before other name := by
  constructor
  · rintro ⟨query, inside, called⟩
    rw [room_entered entered nonempty] at inside
    rw [named_entered entered] at called
    split at inside
    · rename_i same
      cases inside
      rw [← called, same, named]
      exact .inl rfl
    · exact .inr ⟨query, inside, called⟩
  · rintro (same | ⟨query, inside, called⟩)
    · obtain ⟨rfl, rfl⟩ := Prod.mk.inj same
      refine ⟨sessionId, ?_, (named_entered entered sessionId).trans named⟩
      rw [room_entered entered nonempty, if_pos rfl]
    · refine ⟨query, ?_, (named_entered entered query).trans called⟩
      rw [room_entered entered nonempty, if_neg, inside]
      rintro rfl
      rw [outside] at inside
      cases inside

include kept

/-- A session in no room enters one that is bound. -/
theorem Kept.enter (own : opening = none ∨ opening = some roomId)
    (there : (before.sessions sessionId).isSome) (outside : before.room sessionId = none)
    (named : before.named sessionId = nickname) (addr : before.sfuAddr roomId = some sfuAddr)
    (isBound : before.Bound roomId) : Kept node (some sessionId) none after := by
  have sits := sits_entered entered nonempty outside named
  have still {query : SessionId} {other : RoomId} (inside : before.room query = some other) :
      query ≠ sessionId := by
    rintro rfl
    rw [outside] at inside
    cases inside
  have room := room_entered entered nonempty
  have called := named_entered entered
  have members : after.members = insert (roomId, nickname) before.members := by
    rw [entered]
    rfl
  have peers : after.peers node = before.peers node := by
    rw [entered, Seats.peers_setRoom]
    rfl
  have addresses (other : RoomId) : after.sfuAddr other = before.sfuAddr other := by
    refine Roster.sfuAddr_congr ?_
    rw [entered]
    rfl
  have bound_iff (other : RoomId) : after.Bound other ↔ before.Bound other := by
    rw [entered]
    rfl
  constructor
  · intro first second
    rw [sessions_entered entered there, sessions_entered entered there, called, called]
    exact kept.apart first second
  · intro query there'
    rw [sessions_entered entered there] at there'
    rw [entered]
    exact kept.issued query there'
  · intro query session known
    refine Roster.session_eq_some.mpr ?_
    rw [sessions_entered entered there, called, room]
    rw [known_entered entered] at known
    split at known
    · rename_i same
      obtain ⟨earlier, was, rfl⟩ := Option.map_eq_some_iff.mp known
      obtain ⟨there, name, -⟩ := Roster.session_eq_some.mp (kept.known sessionId earlier was)
      rw [same, if_pos rfl]
      exact ⟨there, name, rfl⟩
    · rename_i apart
      rw [if_neg apart]
      exact Roster.session_eq_some.mp (kept.known query session known)
  · intro other name
    rw [members, Finset.mem_insert, sits, kept.members]
  · intro other name
    rw [peers, kept.peers]
    constructor
    · rintro ⟨query, inside, name, -⟩
      refine ⟨query, ?_, (called query).trans name, fun same => still inside ?_⟩
      · rw [room, if_neg (still inside), inside]
      · exact (Option.some.inj same).symm
    · rintro ⟨query, inside, name, apart⟩
      have other : query ≠ sessionId := fun same => apart (congrArg some same.symm)
      rw [room, if_neg other] at inside
      exact ⟨query, inside, (called query).symm.trans name, nofun⟩
  · intro other_addr other name
    have held : after.sfuPeers = insert (sfuAddr, roomId, nickname) before.sfuPeers := by
      rw [entered]
      rfl
    rw [held, Finset.mem_insert, sits, addresses, kept.sfuPeers, or_and_right]
    refine or_congr_left ⟨fun same => ?_, fun ⟨same, its⟩ => ?_⟩
    · obtain ⟨rfl, place⟩ := Prod.mk.inj same
      refine ⟨place, ?_⟩
      rw [(Prod.mk.inj place).1, addr]
    · obtain ⟨rfl, rfl⟩ := Prod.mk.inj same
      rw [addr] at its
      rw [Option.some.inj its]
  · intro other
    rw [bound_iff, or_iff_left nofun]
    constructor
    · intro isBound
      rcases (kept.bound other).mp isBound with ⟨name, member⟩ | first
      · exact ⟨name, members ▸ Finset.mem_insert_of_mem member⟩
      · rcases own with none | some
        · rw [none] at first
          cases first
        · rw [some] at first
          rw [← Option.some.inj first]
          exact ⟨nickname, members ▸ Finset.mem_insert_self _ _⟩
    · rintro ⟨name, member⟩
      rw [members, Finset.mem_insert] at member
      rcases member with same | member
      · rw [(Prod.mk.inj same).1]
        exact isBound
      · exact (kept.bound other).mpr (.inl ⟨name, member⟩)
  · intro other isBound
    rw [addresses]
    exact kept.routed other ((bound_iff other).mp isBound)
  · intro other isBound
    rw [entered]
    exact kept.drawn other ((bound_iff other).mp isBound)
  · rw [entered]
    exact kept.written
  · rw [entered]
    exact kept.loads
  · intro other name entry found
    rw [peers] at found
    obtain ⟨listens, query, attached, inside, name⟩ := kept.wired other name entry found
    refine ⟨?_, query, ?_, ?_, (called query).trans name⟩
    · rw [entered]
      exact listens
    · rw [entered]
      exact attached
    · rw [room, if_neg (still inside), inside]

end Enter

/-- A peer that was about to be registered is. -/
theorem Kept.register {entry : PeerEntry} (kept : Kept node (some sessionId) none roster)
    (room : roster.room sessionId = some roomId) (named : roster.named sessionId = nickname)
    (attached : roster.attached entry.sender = some sessionId)
    (listens : roster.listening entry.sender = true) :
    Kept node none none (roster.register node roomId nickname entry) := by
  have keeps : Roster.Keeps roster (roster.register node roomId nickname entry) :=
    Roster.keeps_withPeers
  have peers : (roster.register node roomId nickname entry).peers node =
      (roster.peers node).insert (roomId, nickname) entry := by
    rw [Roster.peers_register, if_pos rfl]
  refine { kept with known := ?_, peers := ?_, wired := ?_ }
  · intro query session known
    rw [keeps.known] at known
    exact kept.known query session known
  · intro other name
    rw [peers, Finmap.mem_insert, kept.peers]
    constructor
    · rintro (same | ⟨query, inside, called, -⟩)
      · obtain ⟨rfl, rfl⟩ := Prod.mk.inj same
        exact ⟨sessionId, room, named, nofun⟩
      · exact ⟨query, inside, called, nofun⟩
    · rintro ⟨query, inside, called, -⟩
      by_cases own : query = sessionId
      · have inside : roster.room query = some other := inside
        have called : roster.named query = name := called
        rw [own, room] at inside
        rw [own, named] at called
        exact .inl (Prod.ext (Option.some.inj inside).symm called.symm)
      · exact .inr ⟨query, inside, called, fun same => own (Option.some.inj same).symm⟩
  · intro other name found lookup
    rw [peers, lookup_insert_if] at lookup
    split at lookup
    · rename_i same
      obtain ⟨rfl, rfl⟩ := Prod.mk.inj same
      cases lookup
      exact ⟨listens, sessionId, attached, room, named⟩
    · exact kept.wired other name found lookup

/-! ## Rooms are opened and closed -/

/-- Nobody is in a room that has not been drawn. -/
theorem Kept.unoccupied (kept : Kept node none none roster) (undrawn : roomId ∉ roster.issued) :
    ¬ roster.Occupied roomId := fun occupied =>
  undrawn (kept.drawn roomId ((kept.bound roomId).mpr (.inl occupied))).1

/-- The address of a new room can be read from its binding. -/
theorem sfuAddr_bind {ownerHost ownerId : String} {port : UInt16} {best : SfuInstance}
    (host : ownerHost ≠ "") (addr : best.grpcAddr ≠ "") :
    (roster.bind roomId ownerHost (toString port.toNat) ownerId best).sfuAddr roomId =
      some best.grpcAddr := by
  obtain ⟨route, parsed, same⟩ := RoomClosing.ofFields_written
    ⟨ownerHost, ownerId, port, best, host, rfl⟩
  rw [Redis.get_newBinding, if_pos rfl] at same
  have lookup : (roster.bind roomId ownerHost (toString port.toNat) ownerId best).bindings.lookup
      roomId = some (Redis.newBinding ownerHost (toString port.toNat) ownerId best) :=
    Finmap.lookup_insert _
  simp only [Roster.sfuAddr, Roster.route, lookup, Option.map_some, Option.getD_some, parsed]
  simp only [Except.toOption, Option.bind_some, same, Option.filter, ne_eq, addr, not_false_eq_true,
    decide_true, if_true]

/-- A new room is counted. -/
theorem counts_bind {ownerHost ownerPort ownerId : String} {best : SfuInstance}
    (counts : ∀ instanceId, load roster instanceId = (bound roster instanceId).card)
    (unbound : roster.bindings.lookup roomId = none) (instanceId : InstanceId) :
    load (roster.bind roomId ownerHost ownerPort ownerId best) instanceId =
      (bound (roster.bind roomId ownerHost ownerPort ownerId best) instanceId).card := by
  have names : RoomLoad.Names instanceId (Redis.newBinding ownerHost ownerPort ownerId best) ↔
      instanceId = best.instanceId := by
    rw [RoomLoad.Names, Redis.get_newBinding]
    simp [eq_comm]
  have before := counts instanceId
  unfold load bound at *
  change ((roster.loads.insert best.instanceId _).lookup instanceId).getD 0 =
    (tally (RoomLoad.Names instanceId) (roster.bindings.insert roomId _) : ℤ)
  rw [lookup_insert_if]
  by_cases same : instanceId = best.instanceId
  · rw [if_pos same, tally_insert_of_holds unbound (names.mpr same), ← same, Option.getD_some]
    unfold tally
    omega
  · rw [if_neg same, tally_insert_of_not unbound fun named => same (names.mp named)]
    exact before

/-- A room that has been drawn is bound; nobody is in it yet. -/
theorem Kept.bind {ownerHost ownerId : String} {port : UInt16} {best : SfuInstance}
    (kept : Kept node none none roster) (undrawn : roomId ∉ roster.issued) (nonempty : roomId ≠ "")
    (host : ownerHost ≠ "") (addr : best.grpcAddr ≠ "") :
    Kept node none (some roomId)
      ((roster.draw roomId).bind roomId ownerHost (toString port.toNat) ownerId best) := by
  have lookup (other : RoomId) : ((roster.draw roomId).bind roomId ownerHost
      (toString port.toNat) ownerId best).bindings.lookup other =
      if other = roomId then some (Redis.newBinding ownerHost (toString port.toNat) ownerId best)
      else roster.bindings.lookup other := lookup_insert_if _ _ _ _
  have unbound : roster.bindings.lookup roomId = none := by
    refine Option.not_isSome_iff_eq_none.mp fun isBound => undrawn ?_
    exact (kept.drawn roomId isBound).1
  have bound_iff (other : RoomId) : ((roster.draw roomId).bind roomId ownerHost
      (toString port.toNat) ownerId best).Bound other ↔ other = roomId ∨ roster.Bound other := by
    rw [Roster.Bound, lookup]
    split
    · rename_i same
      exact iff_of_true rfl (.inl same)
    · rename_i apart
      exact (or_iff_right apart).symm
  have own : ((roster.draw roomId).bind roomId ownerHost (toString port.toNat) ownerId
      best).sfuAddr roomId = some best.grpcAddr := sfuAddr_bind host addr
  have others {other : RoomId} (apart : other ≠ roomId) : ((roster.draw roomId).bind roomId
      ownerHost (toString port.toNat) ownerId best).sfuAddr other = roster.sfuAddr other :=
    Roster.sfuAddr_eq ((lookup other).trans (if_neg apart))
  refine { kept with
    issued := fun sessionId there => Finset.mem_insert_of_mem (kept.issued sessionId there)
    sfuPeers := fun sfuAddr other name => ?_
    bound := fun other => ?_
    routed := fun other isBound => ?_
    drawn := fun other isBound => ?_
    written := fun other hash found => ?_
    loads := counts_bind kept.loads unbound }
  · refine (kept.sfuPeers sfuAddr other name).trans (and_congr_right fun sits => ?_)
    rw [others]
    rintro rfl
    exact kept.unoccupied undrawn ⟨name, (kept.members other name).mpr sits⟩
  · rw [bound_iff, kept.bound_iff, or_comm, Option.some.injEq, eq_comm]
    exact Iff.rfl
  · by_cases same : other = roomId
    · rw [same]
      exact ⟨_, own⟩
    · rw [others same]
      exact kept.routed other (((bound_iff other).mp isBound).resolve_left same)
  · rcases (bound_iff other).mp isBound with rfl | isBound
    · exact ⟨Finset.mem_insert_self _ _, nonempty⟩
    · obtain ⟨drawn, nonempty⟩ := kept.drawn other isBound
      exact ⟨Finset.mem_insert_of_mem drawn, nonempty⟩
  · rw [Option.mem_def, lookup] at found
    split at found
    · cases found
      exact ⟨ownerHost, ownerId, port, best, host, rfl⟩
    · exact kept.written other hash found

/-- A room that nobody has entered is closed again. -/
theorem Kept.close (kept : Kept node none (some roomId) roster)
    (empty : ¬ roster.Occupied roomId) : Kept node none none (roster.close roomId) := by
  have isBound : roster.Bound roomId := (kept.bound roomId).mpr (.inr rfl)
  have bound_iff (other : RoomId) :
      (roster.close roomId).Bound other ↔ other ≠ roomId ∧ roster.Bound other := by
    rw [Roster.Bound, lookup_close]
    split
    · rename_i same
      exact iff_of_false Bool.false_ne_true fun both => both.1 same
    · rename_i apart
      exact (and_iff_right apart).symm
  have others {other : RoomId} (apart : other ≠ roomId) :
      (roster.close roomId).sfuAddr other = roster.sfuAddr other :=
    Roster.sfuAddr_eq ((lookup_close other).trans (if_neg apart))
  refine { kept with
    sfuPeers := fun sfuAddr other name => ?_
    bound := fun other => ?_
    routed := fun other isBound => ?_
    drawn := fun other isBound => kept.drawn other ((bound_iff other).mp isBound).2
    written := fun other hash found => ?_
    loads := counts_close kept.written kept.loads isBound }
  · refine (kept.sfuPeers sfuAddr other name).trans (and_congr_right fun sits => ?_)
    rw [others]
    rintro rfl
    exact empty ⟨name, (kept.members other name).mpr sits⟩
  · rw [bound_iff, kept.bound]
    constructor
    · rintro ⟨apart, occupied | first⟩
      · exact .inl occupied
      · exact absurd (Option.some.inj first).symm apart
    · rintro (occupied | first)
      · refine ⟨?_, .inl occupied⟩
        rintro rfl
        exact empty occupied
      · cases first
  · obtain ⟨apart, isBound⟩ := (bound_iff other).mp isBound
    rw [others apart]
    exact kept.routed other isBound
  · rw [Option.mem_def, lookup_close] at found
    split at found
    · cases found
    · exact kept.written other hash found

/-! ## Sessions come and go -/

/-- A session with a nickname of its own is opened. -/
theorem Kept.enroll (kept : Kept node none none roster) (undrawn : sessionId ∉ roster.issued)
    (free : ∀ other, (roster.sessions other).isSome → roster.named other ≠ nickname) :
    Kept node none none (roster.enroll nickname sessionId) := by
  have absent : (roster.sessions sessionId).isSome = false := by
    refine Bool.eq_false_iff.mpr fun there => undrawn (kept.issued sessionId there)
  have outside : roster.room sessionId = none := by
    refine Option.eq_none_iff_forall_ne_some.mpr fun roomId room => ?_
    rw [isSome_of_room room] at absent
    cases absent
  have room (query : SessionId) :
      (roster.enroll nickname sessionId).room query = roster.room query := by
    rw [Roster.enroll, Roster.room, Roster.get_hset]
    split
    · rename_i same
      rw [same.1, outside]
      rfl
    · exact Roster.room_hset (by decide) query
  have named (query : SessionId) : (roster.enroll nickname sessionId).named query =
      if query = sessionId then nickname else roster.named query := by
    rw [Roster.enroll, Roster.named_hset (by decide), Roster.named, Roster.get_hset]
    split
    · rename_i same
      rw [if_pos same.1]
      rfl
    · rename_i apart
      rw [if_neg fun same => apart ⟨same, rfl⟩]
      rfl
  have there (query : SessionId)
    (exist : ((roster.enroll nickname sessionId).sessions query).isSome) :
      query = sessionId ∨ (roster.sessions query).isSome := by
    rw [Roster.enroll, Roster.sessions_hset] at exist
    split at exist
    · rename_i same
      exact .inl same
    · rw [Roster.sessions_hset] at exist
      split at exist
      · rename_i same
        exact .inl same
      · exact .inr exist
  refine kept.still ⟨room, fun query inside => ?_, Finset.subset_insert _ _, rfl, rfl, rfl, rfl,
    rfl, fun _ _ attached _ => ⟨attached, rfl⟩⟩ ?_ ?_ ?_
  · rw [named, if_neg]
    rintro rfl
    exact inside outside
  · intro first second one two same
    rw [named, named] at same
    by_cases own : first = sessionId <;> by_cases also : second = sessionId
    · rw [own, also]
    · rw [if_pos own, if_neg also] at same
      exact absurd same.symm (free second ((there second two).resolve_left also))
    · rw [if_neg own, if_pos also] at same
      exact absurd same (free first ((there first one).resolve_left own))
    · rw [if_neg own, if_neg also] at same
      exact kept.apart first second ((there first one).resolve_left own)
        ((there second two).resolve_left also) same
  · intro query exist
    rcases there query exist with rfl | exist
    · exact Finset.mem_insert_self _ _
    · exact Finset.mem_insert_of_mem (kept.issued query exist)
  · intro query session known
    have found := Roster.session_eq_some.mp (kept.known query session known)
    have apart : query ≠ sessionId := by
      rintro rfl
      rw [found.1] at absent
      cases absent
    refine Roster.session_eq_some.mpr ⟨?_, ?_, ?_⟩
    · rw [Roster.enroll, Roster.sessions_hset, if_neg apart, Roster.sessions_hset, if_neg apart]
      exact found.1
    · rw [named, if_neg apart, found.2.1]
    · rw [room, found.2.2]

/-- Releasing a nickname concerns no table. -/
theorem like_release (nickname : Nickname) (sessionId : SessionId) :
    Like node roster (roster.release nickname sessionId) :=
  ⟨⟨fun _ => rfl, fun _ _ => rfl, Finset.Subset.refl _, rfl, rfl, rfl, rfl, rfl,
    fun _ _ attached _ => ⟨attached, rfl⟩⟩, fun _ => rfl, fun _ => rfl, fun _ _ => .inl⟩

/-- A session in no room is deleted, and the node forgets it. -/
theorem Kept.delete (kept : Kept node standing opening roster)
    (outside : roster.room sessionId = none) :
    Kept node standing opening
      ((roster.deleteSession sessionId).withSessions node (·.remove sessionId)) := by
  have deleted (query : SessionId) : ((roster.deleteSession sessionId).withSessions node
      (·.remove sessionId)).sessions query = if query = sessionId then none
        else roster.sessions query := Function.update_apply _ _ _ _
  have there (query : SessionId) (exist : (((roster.deleteSession sessionId).withSessions node
      (·.remove sessionId)).sessions query).isSome) :
      query ≠ sessionId ∧ (roster.sessions query).isSome := by
    rw [deleted] at exist
    split at exist
    · cases exist
    · rename_i apart
      exact ⟨apart, exist⟩
  have named {query : SessionId} (apart : query ≠ sessionId) : ((roster.deleteSession
      sessionId).withSessions node (·.remove sessionId)).named query = roster.named query := by
    rw [Roster.named, deleted, if_neg apart]
    rfl
  have room (query : SessionId) : ((roster.deleteSession sessionId).withSessions node
      (·.remove sessionId)).room query = roster.room query := by
    rw [Roster.room, deleted]
    split
    · rename_i same
      rw [same, outside]
      rfl
    · rfl
  refine kept.still ⟨room, fun query inside => named ?_, Finset.Subset.refl _, rfl,
    Roster.peers_withSessions, rfl, rfl, rfl, fun _ _ attached _ => ⟨attached, rfl⟩⟩ ?_ ?_ ?_
  · rintro rfl
    exact inside outside
  · intro first second one two same
    obtain ⟨apart, one⟩ := there first one
    obtain ⟨apart', two⟩ := there second two
    rw [named apart, named apart'] at same
    exact kept.apart first second one two same
  · exact fun query exist => kept.issued query (there query exist).2
  · intro query session known
    rw [Roster.known_withSessions, if_pos rfl, SessionStore.lookup_remove] at known
    split at known
    · cases known
    · rename_i apart
      have found := Roster.session_eq_some.mp (kept.known query session known)
      refine Roster.session_eq_some.mpr ?_
      rw [deleted, if_neg apart, named apart, room]
      exact found

/-- A session in no room logs out. -/
theorem Kept.logout (kept : Kept node standing opening roster)
    (outside : roster.room sessionId = none)
    (free : ∀ other ∈ roster.attached connection, other = sessionId) :
    Kept node standing opening (roster.logout node connection sessionId nickname) := by
  have released := kept.like (like_release nickname sessionId)
  have deleted := released.delete outside
  refine deleted.like (like_attach fun other own => .inr ?_)
  rw [free other own]
  change Option.filter _ ((Function.update roster.sessions sessionId none sessionId).bind _) = none
  rw [Function.update_self]
  rfl

/-! ## What the requests do -/

/-- Every channel that is received from accepts. -/
def Listening : Accepting := fun listening sender => listening sender = true

/-- No announcement takes anybody out. -/
theorem Kept.nil_of_refusing (kept : Kept node standing opening roster) {victims : List Nickname}
    (refusing : Refusing Listening node roomId roster victims) : victims = [] := by
  refine List.eq_nil_iff_forall_not_mem.mpr fun victim member => ?_
  obtain ⟨entry, found, refuses⟩ := refusing victim member
  exact refuses (kept.wired roomId victim entry found).1

/-- A request that moves nobody keeps the tables. -/
theorem Kept.unmoved (kept : Kept node none none before)
    (unmoved : Signaling.Unmoved node connection sessionId before after) :
    Kept node none none after := by
  rcases unmoved with rfl | ⟨session, checked, rfl⟩
  · exact kept
  · exact kept.check checked.found checked.free

/-- A session that has been looked up leaves its room. -/
theorem Kept.checkedOut (kept : Kept node none none roster)
    (checked : Checked roster connection sessionId session) (room : session.roomId = some roomId) :
    Kept node none none ((roster.check node connection sessionId session).leave node sessionId
      roomId session.nickname []) := by
  obtain ⟨-, named, recorded⟩ := Roster.session_eq_some.mp checked.found
  have found : Kept node none none (roster.check node connection sessionId session) :=
    kept.check checked.found checked.free
  exact found.leave (recorded.symm.trans room) named.symm rfl (.inl rfl)

variable {state : State} {result : Except WsHandlerError Unit} {request : ClientMessage}

/-- A session has entered a room, and its peer is still to be registered. -/
theorem Kept.entered (kept : Kept state.node none none before)
    (host : state.config.signalingPublicHost ≠ "")
    (entered : Entered state connection sessionId roomId session sfuAddr before after) :
    Kept state.node (some sessionId) none after ∧ after.attached connection = some sessionId ∧
      after.room sessionId = some roomId ∧ after.named sessionId = session.nickname ∧
        after.listening = before.listening := by
  obtain ⟨admitted, opened, opens, enterable, last⟩ := entered
  obtain ⟨there, named, room⟩ := Roster.session_eq_some.mp admitted.found
  have outside : before.room sessionId = none := room.symm.trans admitted.outside
  have found : Kept state.node none none
      (before.check state.node connection sessionId session) :=
    kept.check admitted.found admitted.free
  have attached : (before.check state.node connection sessionId session).attached connection =
      some sessionId := Function.update_self _ _ _
  have enters {opening : Option RoomId} (kept : Kept state.node none opening opened)
      (own : opening = none ∨ opening = some roomId)
      (there : (opened.sessions sessionId).isSome) (outside : opened.room sessionId = none)
      (named : opened.named sessionId = session.nickname)
      (addr : opened.sfuAddr roomId = some sfuAddr)
      (attached : opened.attached connection = some sessionId)
      (listening : opened.listening = before.listening) :
      Kept state.node (some sessionId) none after ∧ after.attached connection = some sessionId ∧
        after.room sessionId = some roomId ∧ after.named sessionId = session.nickname ∧
          after.listening = before.listening := by
    have nonempty := (kept.drawn roomId enterable.bound).2
    refine ⟨kept.enter last nonempty own there outside named addr enterable.bound, ?_, ?_, ?_, ?_⟩
    · rw [last]
      exact attached
    · rw [room_entered last nonempty, if_pos rfl]
    · rw [named_entered last, named]
    · rw [last]
      exact listening
  cases opens with
  | join addr => exact enters found (.inl rfl) there outside named.symm addr attached rfl
  | @create best undrawn nonempty chosen =>
      have addr : best.grpcAddr ≠ "" := by
        rw [chosen.addr]
        exact chosen.named
      refine enters (found.bind undrawn nonempty host addr) (.inr rfl) there outside named.symm ?_
        attached rfl
      exact (sfuAddr_bind host addr).trans (congrArg some chosen.addr)

/-- What a request leaves behind: the tables follow the hashes, or the connection is lost with
its own session still to be registered. -/
def Settled (node : NodeId) (connection : ConnectionId) (result : Except WsHandlerError Unit)
    (after : Roster) : Prop :=
  Kept node none none after ∨
    result = .error .writeFailed ∧ Kept node (after.attached connection) none after

/-- A request to enter a room. -/
theorem Kept.entry (kept : Kept state.node none none before)
    (host : state.config.signalingPublicHost ≠ "") (listens : before.listening connection = true)
    (outcome : EntryOutcome state connection sessionId Listening True before result after) :
    Settled state.node connection result after := by
  have refused (refused : Refused state connection sessionId True before after) :
      Kept state.node none none after := by
    have checks {session : SessionState} (checked : Checked before connection sessionId session) :
        Kept state.node none none (before.check state.node connection sessionId session) :=
      kept.check checked.found checked.free
    cases refused with
    | unmoved unmoved => exact kept.unmoved unmoved
    | drawn checked => exact (checks checked).like (like_draw _)
    | stranded irregular => exact absurd trivial irregular
    | @closed session roomId sfuAddr opened checked undrawn opens =>
        have found := checks checked
        cases opens with
        | join addr =>
            refine absurd (found.drawn roomId ?_).1 undrawn
            by_contra unbound
            rw [Roster.sfuAddr_of_unbound (Option.not_isSome_iff_eq_none.mp unbound)] at addr
            cases addr
        | create _ nonempty chosen =>
            have addr := chosen.named
            rw [← chosen.addr] at addr
            exact (found.bind undrawn nonempty host addr).close (found.unoccupied undrawn)
  cases result with
  | error error =>
      rcases outcome with ⟨rfl, _, _, _, entered⟩ | ⟨-, refusal⟩
      · obtain ⟨kept, attached, -⟩ := kept.entered host entered
        rw [← attached] at kept
        exact .inr ⟨rfl, kept⟩
      · exact .inl (refused refusal)
  | ok =>
      obtain ⟨roomId, session, sfuAddr, entered, victims, enters, refusing, rfl⟩ := outcome
      obtain ⟨kept, attached, room, named, listening⟩ := kept.entered host enters
      have registered : Kept state.node none none (entered.register state.node roomId
          session.nickname ⟨connection, some sfuAddr⟩) :=
        kept.register room named attached ((congrFun listening connection).trans listens)
      obtain rfl := registered.nil_of_refusing refusing
      exact .inl registered

/-- What a client's message leaves behind. -/
theorem Kept.message (kept : Kept state.node none none before)
    (host : state.config.signalingPublicHost ≠ "") (listens : before.listening connection = true)
    (outcome : Outcome state connection Listening True before request result after) :
    Settled state.node connection result after := by
  cases request with
  | attach token =>
      cases outcome with
      | refused => exact .inl kept
      | @attached _ sessionId session _ free found =>
          obtain ⟨there, named, room⟩ := Roster.session_eq_some.mp found
          have owned : Kept state.node none none
              (before.hset sessionId "signaling_owner_id" state.config.publicNodeId) :=
            kept.like (like_hset there (by decide) (by decide))
          refine .inl (owned.check (Roster.session_eq_some.mpr ⟨?_, ?_, ?_⟩) ?_)
          · rw [Roster.sessions_hset, if_pos rfl]
            rfl
          · rw [named, Roster.named_hset (by decide)]
          · rw [room, Roster.room_hset (by decide)]
          · intro other own
            rw [show (before.hset _ _ _).attached connection = none from free] at own
            cases own
  | logout sessionId participants =>
      have own {roster : Roster} (attached : roster.attached connection = some sessionId) :
          ∀ other ∈ roster.attached connection, other = sessionId := by
        intro other held
        rw [attached] at held
        exact (Option.some.inj held).symm
      cases outcome with
      | refused => exact .inl kept
      | @outside _ session checked room =>
          have outside : before.room sessionId = none :=
            (Roster.session_eq_some.mp checked.found).2.2.symm.trans room
          have found : Kept state.node none none
              (before.check state.node connection sessionId session) :=
            kept.check checked.found checked.free
          exact .inl (found.logout outside (own (Function.update_self _ _ _)))
      | @inside _ session roomId _ checked room refusing =>
          obtain rfl := kept.nil_of_refusing refusing
          have attached : ((before.check state.node connection sessionId session).detach state.node
              roomId session.nickname).attached connection = some sessionId := by
            rw [Roster.keeps_detach.attached]
            exact Function.update_self _ _ _
          exact .inl ((kept.checkedOut checked room).logout (Seats.room_leave []) (own attached))
  | create sessionId | join sessionId =>
      obtain ⟨lockOwner, ⟨-, rfl⟩ | outcome⟩ := outcome
      · exact .inl (kept.like (like_draw lockOwner))
      · exact (kept.like (like_draw lockOwner)).entry host listens outcome
  | leave =>
      cases outcome with
      | refused unmoved => exact .inl (kept.unmoved unmoved)
      | left checked room refusing =>
          obtain rfl := kept.nil_of_refusing refusing
          exact .inl (kept.checkedOut checked room)
  | sdp | candidate => exact .inl (kept.unmoved outcome)

/-- A session that is in no room needs not be registered. -/
theorem Kept.absent (kept : Kept node standing opening roster)
    (absent : ∀ sessionId, standing = some sessionId → roster.room sessionId = none) :
    Kept node none opening roster := by
  refine { kept with peers := fun roomId nickname => (kept.peers roomId nickname).trans ?_ }
  refine exists_congr fun sessionId => and_congr_right fun inside => and_congr_right fun _ => ?_
  refine iff_of_true (fun same => ?_) nofun
  rw [absent sessionId same] at inside
  cases inside

/-- A session is recalled as its hash describes it. -/
theorem Kept.recalled (kept : Kept node standing opening roster) (sessionId : SessionId) :
    roster.recalled node sessionId = roster.session sessionId := by
  unfold Roster.recalled
  cases known : roster.known node sessionId with
  | none => rfl
  | some session => exact (kept.known sessionId session known).symm

/-- The end of a connection takes its session out of its room. -/
theorem Kept.disconnect (kept : Kept state.node standing none before)
    (own : standing = none ∨ standing = before.attached connection)
    (outcome : CleanupOutcome state connection Listening before after) :
    Kept state.node none none (after.attach connection none) := by
  have seat {sessionId : SessionId} (attached : before.attached connection = some sessionId) :
      standing = none ∨ standing = some sessionId := by rwa [attached] at own
  cases outcome with
  | unattached unattached =>
      obtain rfl : standing = none := own.elim id fun same => same.trans unattached
      refine kept.like (like_attach fun other own => ?_)
      rw [unattached] at own
      cases own
  | @outside sessionId attached outside =>
      rw [kept.recalled] at outside
      have out : before.room sessionId = none := by
        refine Option.eq_none_iff_forall_ne_some.mpr fun roomId room => ?_
        have found : before.session sessionId = some ⟨before.named sessionId, some roomId⟩ :=
          Roster.session_eq_some.mpr ⟨isSome_of_room room, rfl, room.symm⟩
        cases outside _ found
      have gone : Kept state.node none none before := by
        refine kept.absent fun other same => ?_
        rcases seat attached with none | some
        · rw [none] at same
          cases same
        · rw [some] at same
          rw [← Option.some.inj same, out]
      refine (gone.like (like_remove sessionId)).like (like_attach fun other held => .inr ?_)
      rw [show (before.withSessions _ _).attached connection = some sessionId from attached] at held
      rw [← Option.some.inj held]
      exact out
  | @inside sessionId session roomId victims attached recalled room refusing =>
      obtain rfl := kept.nil_of_refusing refusing
      rw [kept.recalled] at recalled
      obtain ⟨-, named, recorded⟩ := Roster.session_eq_some.mp recalled
      have left : Kept state.node none none
          (before.leave state.node sessionId roomId session.nickname []) :=
        kept.leave (recorded.symm.trans room) named.symm rfl (seat attached)
      refine (left.like (like_remove sessionId)).like (like_attach fun other held => .inr ?_)
      have same : other = sessionId := by
        have attached : (before.detach state.node roomId session.nickname).attached connection =
            some sessionId := by rw [Roster.keeps_detach.attached, attached]
        exact (Option.some.inj (attached.symm.trans held)).symm
      rw [same]
      exact Seats.room_leave []

/-! ## Runs of a node -/

/-- What may happen: sessions are opened while the nicknames in use are reserved, so that each
has one of its own, and open connections send messages and end. -/
def Admits (roster : Roster) : Happening → Prop
  | .auth _ => ∀ sessionId, (roster.sessions sessionId).isSome →
      roster.reserved (roster.named sessionId) ≠ none
  | .message connection _ => roster.listening connection = true
  | .disconnect _ => True
  | .logout _ | .event _ => False

/-- No channel is full, and a room is assigned while the records of the SFUs are as they should
be. -/
def Lets (records : SfuInstance → Prop) : (op : Op) → World → op.Reply → Prop
  | .trySend sender _, world, reply => world.roster.listening sender = true → reply = true
  | .redis (.assignRoomToSfu ..), world, _ =>
      ∀ instanceId, ∀ record ∈ world.redis.instances.lookup instanceId, records record
  | _, _, _ => True

/-- A node whose SFUs have such records. -/
def system (config : Connector.Config) (jwt : Jwt) (state : State)
    (records : SfuInstance → Prop) : Turns Op Op.Reply World Happening where
  program := Happening.program config jwt state
  starts happening world := Admits world.roster happening
  exec _ op before reply after := World.exec op before reply after ∧ Lets records op before reply
  idles before after := before.roster.Idles after.roster

/-- The SFU has an address. -/
def Addressed (record : SfuInstance) : Prop := record.grpcAddr ≠ ""

/-- Nor is it called by the marker of the assignment script. -/
def Regular (record : SfuInstance) : Prop :=
  Addressed record ∧ record.instanceId ≠ "__ROOM_EXISTS__"

section Run

variable {config : Connector.Config} {jwt : Jwt} {world : World}

/-- An operation while no channel is full and the SFU records are regular. -/
abbrev Smooth : (op : Op) → World → op.Reply → World → Prop := Replying (Lets Regular)

/-- A channel that is received from accepts. -/
theorem listening_of_smooth (sender : ConnectionId) (message : ServerMessage) (before : World)
    (reply : (Op.trySend sender message).Reply) (after : World)
    (step : Smooth (.trySend sender message) before reply after)
    (listens : Listening before.roster.listening sender) : reply = true :=
  step.2 listens

/-- The records are regular when the script reads them. -/
theorem regular_of_smooth (_ : True) (roomId : RoomId) (ownerHost ownerPort : String)
    (ownerId : NodeId) (clock staleAfter : ℤ) (before : World)
    (reply : (Op.redis (.assignRoomToSfu roomId ownerHost ownerPort ownerId clock
      staleAfter)).Reply) (after : World)
    (step : Smooth (.redis (.assignRoomToSfu roomId ownerHost ownerPort ownerId clock
      staleAfter)) before reply after)
    (instanceId : InstanceId) (record : SfuInstance)
    (found : before.redis.instances.lookup instanceId = some record) :
    record.grpcAddr ≠ "" ∧ record.instanceId ≠ "__ROOM_EXISTS__" :=
  step.2 instanceId record found

/-- The end of a connection. -/
theorem Kept.ends (kept : Kept state.node standing none world.roster)
    (own : standing = none ∨ standing = world.roster.attached connection) :
    (endConnection state connection).Ensures Smooth world
      fun _ after => Kept state.node none none after.roster := by
  refine (endConnection_ensures exec_of_replying listening_of_smooth state connection).mono ?_
  rintro _ after ⟨cleaned, outcome, same⟩
  rw [same]
  exact kept.disconnect own outcome

/-- **Step lemma.** Whatever happens, the tables follow the hashes. -/
theorem Kept.happening (kept : Kept state.node none none world.roster)
    (host : state.config.signalingPublicHost ≠ "") (happening : Happening)
    (admits : Admits world.roster happening) :
    (happening.program config jwt state).Ensures Smooth world
      fun _ after => Kept state.node none none after.roster := by
  cases happening with
  | auth nickname =>
      refine (Connector.auth_ensures exec_of_replying config nickname).bind
        fun _ after outcome => ?_
      refine ensures_ret.mpr ?_
      generalize after.roster = opened at outcome ⊢
      cases outcome with
      | invalid => exact kept
      | taken => exact kept.like (like_draw _)
      | enrolled undrawn _ _ unreserved =>
          refine kept.enroll undrawn fun other there named => admits other there ?_
          rw [named, unreserved]
  | message connection request =>
      refine (handleText_ensures exec_of_replying listening_of_smooth regular_of_smooth state
        connection jwt request).bind ?_
      rintro goesOn middle ⟨result, outcome, goes⟩
      have settled := kept.message host admits outcome
      cases goesOn with
      | true => exact ensures_ret.mpr (settled.resolve_right fun lost => goes rfl lost.1)
      | false =>
          rcases settled with kept | ⟨-, kept⟩
          · exact kept.ends (.inl rfl)
          · exact kept.ends (.inr rfl)
  | disconnect connection => exact kept.ends (.inl rfl)
  | logout | event => exact admits.elim

/-- **The tables agree** after every run. -/
theorem consistent_of_run {labels : List (Option Happening)} {after : World}
    (host : state.config.signalingPublicHost ≠ "") (blank : Blank state.node world.roster)
    (run : Runs (system config jwt state Regular).Step world labels after) :
    Consistent state.node after.roster := by
  have kept : Kept state.node none none after.roster := by
    refine Turns.invariant (fun world => Kept state.node none none world.roster)
      (fun happening before kept admits => kept.happening host happening admits)
      (fun before after kept idles => kept.like (like_idles idles)) blank.kept run
  exact kept.consistent

end Run

/-! ## Rooms of two users -/

instance : DecidablePred Addressed := fun _ => inferInstanceAs (Decidable (_ ≠ _))

instance : DecidablePred Regular := fun _ => inferInstanceAs (Decidable (_ ∧ _))

/-- Every record in the store is as it should be. -/
theorem records_iff {records : SfuInstance → Prop} {instances : Map InstanceId SfuInstance} :
    (∀ instanceId, ∀ record ∈ instances.lookup instanceId, records record) ↔
      ∀ instanceId ∈ instances.keys, ∀ record ∈ instances.lookup instanceId, records record := by
  refine ⟨fun all instanceId _ => all instanceId, fun all instanceId record found => ?_⟩
  exact all instanceId (Finmap.mem_keys.mpr (Finmap.mem_of_lookup_eq_some found)) record found

/-- The test of `Lets`. -/
def lets (records : SfuInstance → Prop) [DecidablePred records] :
    (op : Op) → World → op.Reply → Bool
  | .trySend sender _, world, reply =>
      decide (world.roster.listening sender = true → reply = true)
  | .redis (.assignRoomToSfu ..), world, _ => decide (∀ instanceId ∈ world.redis.instances.keys,
      ∀ record ∈ world.redis.instances.lookup instanceId, records record)
  | _, _, _ => true

/-- The test computes the assumption. -/
theorem lets_iff {records : SfuInstance → Prop} [DecidablePred records] {op : Op} {world : World}
    {reply : op.Reply} : lets records op world reply = true ↔ Lets records op world reply := by
  unfold lets Lets
  split
  · exact decide_eq_true_iff
  · exact decide_eq_true_iff.trans records_iff.symm
  · exact iff_of_true rfl trivial

instance (records : SfuInstance → Prop) [DecidablePred records] (op : Op) (world : World)
    (reply : op.Reply) : Decidable (Lets records op world reply) :=
  decidable_of_iff _ lets_iff

/-- One outcome of an operation, if it may be. -/
def sampleLets (records : SfuInstance → Prop) [DecidablePred records] (hint : Hint) (op : Op)
    (world : World) : Option (op.Reply × World) :=
  (World.sample hint op world).filter fun outcome => Lets records op world outcome.1

/-- What the sampler computes is a step under the assumption. -/
theorem sampleLets_sound {records : SfuInstance → Prop} [DecidablePred records] (_ : Happening)
    (hint : Hint) (op : Op) (before : World) (reply : op.Reply) (after : World)
    (sampled : sampleLets records hint op before = some (reply, after)) :
    World.exec op before reply after ∧ Lets records op before reply := by
  obtain ⟨found, lets⟩ := Option.filter_eq_some_iff.mp sampled
  exact ⟨World.sample_sound found, of_decide_eq_true lets⟩

/-- An open connection sends a message, or a connection ends. -/
def admitted (happening : Happening) (world : World) : Bool :=
  match happening with
  | .message connection _ => world.roster.listening connection
  | .disconnect _ => true
  | _ => false

/-- What passes the test is admitted. -/
theorem admits_of_admitted (happening : Happening) (world : World)
    (passes : admitted happening world = true) : Admits world.roster happening := by
  cases happening with
  | message connection => exact passes
  | disconnect => trivial
  | auth | logout | event => cases passes

/-- The hash of a session that has just been opened. -/
def freshHash (nickname : Nickname) : SessionHash :=
  ⟨Hash.set (some (Hash.set none "nickname" nickname)) "room_id" "", none⟩

/-- The sessions of Alice and Bob. -/
def users : Map SessionId SessionHash :=
  (Finmap.singleton "session-1" (freshHash "alice")).insert "session-2" (freshHash "bob")

/-- Alice and Bob each have a session, and there is one SFU. -/
def twoUsers (sfu : SfuInstance) : World :=
  { World.fresh with
    redis := { Redis.empty with
      instances := Finmap.singleton sfu.instanceId sfu
      sessions := users }
    issued := {"session-1", "session-2"} }

/-- The sessions of the two users. -/
theorem sessions_twoUsers {sfu : SfuInstance} (sessionId : SessionId) :
    (twoUsers sfu).roster.sessions sessionId = if sessionId = "session-2" then
      some (freshHash "bob").hash else if sessionId = "session-1" then
        some (freshHash "alice").hash else none := by
  change (users.lookup sessionId).map SessionHash.hash = _
  rw [users, lookup_insert_if]
  split
  · rfl
  · split
    · rename_i same
      rw [same, Finmap.lookup_singleton_eq]
      rfl
    · rename_i other
      refine congrArg _ (Finmap.lookup_eq_none.mpr fun member => other ?_)
      exact (Finmap.mem_singleton _ _ _).mp member

/-- The nicknames of the two users. -/
theorem named_twoUsers {sfu : SfuInstance} {sessionId : SessionId}
    (there : ((twoUsers sfu).roster.sessions sessionId).isSome) :
    (sessionId = "session-2" ∧ (twoUsers sfu).roster.named sessionId = "bob") ∨
      (sessionId = "session-1" ∧ (twoUsers sfu).roster.named sessionId = "alice") := by
  rw [Roster.named]
  rw [sessions_twoUsers] at there ⊢
  split at there
  · rename_i same
    rw [if_pos same]
    exact .inl ⟨same, rfl⟩
  · rename_i apart
    split at there
    · rename_i same
      rw [if_neg apart, if_pos same]
      exact .inr ⟨same, rfl⟩
    · cases there

/-- The two users have not been to the node. -/
theorem blank_twoUsers (sfu : SfuInstance) : Blank sampleNode.node (twoUsers sfu).roster where
  rooms sessionId := by
    rw [Roster.room, sessions_twoUsers]
    split
    · rfl
    · split <;> rfl
  apart first second one two same := by
    rcases named_twoUsers one with ⟨rfl, named⟩ | ⟨rfl, named⟩ <;>
      rcases named_twoUsers two with ⟨rfl, named'⟩ | ⟨rfl, named'⟩
    · rfl
    · rw [named, named'] at same
      exact absurd same (by decide)
    · rw [named, named'] at same
      exact absurd same (by decide)
    · rfl
  issued sessionId there := by
    change sessionId ∈ ({"session-1", "session-2"} : Finset String)
    rcases named_twoUsers there with ⟨rfl, -⟩ | ⟨rfl, -⟩ <;> decide
  known _ := rfl
  members := rfl
  peers := rfl
  sfuPeers := rfl
  bindings := rfl
  loads _ := rfl

/-- Alice creates a room, Bob joins it, and Alice's connection ends. -/
def visit : List (Happening × List Hint) :=
  [(.message 0 (.attach (Names.createToken "token-1" "session-1" "alice")), noHints 11),
    (.message 0 (.create "session-1"),
      noHints 1 ++ { names := ["lock-1"] } :: noHints 7 ++ { names := ["room-1"] } ::
        noHints 1 ++ { names := ["sfu-1"] } :: noHints 3 ++ { names := ["alice"] } ::
          noHints 7),
    (.message 1 (.attach (Seats.joinToken "token-2" "session-2" "bob" "room-1")), noHints 11),
    (.message 1 (.join "session-2" "room-1"),
      noHints 1 ++ { names := ["lock-2"] } :: noHints 11 ++
        { names := ["alice", "bob"] } :: noHints 6 ++ { names := ["alice"] } :: noHints 2),
    (.disconnect 0, noHints 12 ++ { names := ["bob"] } :: noHints 15)]

/-- Bob is left alone in the room. -/
theorem consistent_visit : ∃ after,
    Runs (system Seats.sampleConfig TokenFormat.openJwt sampleNode Regular).Step
      (twoUsers sampleSfu) (visit.map (some ·.1)) after ∧
    after.roster.room "session-2" = some "room-1" ∧
    Consistent sampleNode.node after.roster := by
  have passes : ((system Seats.sampleConfig TokenFormat.openJwt sampleNode Regular).follow
      (fun _ => sampleLets Regular) admitted visit (twoUsers sampleSfu)).any (fun after =>
        decide (after.roster.room "session-2" = some "room-1")) = true := by
    decide +kernel
  obtain ⟨after, run, passed⟩ :=
    Turns.exists_of_follow sampleLets_sound admits_of_admitted passes
  exact ⟨after, run, of_decide_eq_true passed,
    consistent_of_run (by decide) (blank_twoUsers sampleSfu) run⟩

/-! ## An SFU of an unlucky name -/

/-- An instance that is called by the marker of the assignment script. -/
def markedSfu : SfuInstance := { sampleSfu with instanceId := "__ROOM_EXISTS__" }

/-- Alice wants to create a room. -/
def attempt : List (Happening × List Hint) :=
  [(.message 0 (.attach (Names.createToken "token-1" "session-1" "alice")), noHints 11),
    (.message 0 (.create "session-1"),
      noHints 1 ++ { names := ["lock-1"] } :: noHints 7 ++ { names := ["room-1"] } ::
        noHints 1 ++ { names := ["__ROOM_EXISTS__"] } :: noHints 4)]

/-- **A room without members is bound**: the script has bound it, and its reply is taken for the
one that says the room exists. -/
theorem bound_unoccupied : Blank sampleNode.node (twoUsers markedSfu).roster ∧ ∃ after,
    Runs (system Seats.sampleConfig TokenFormat.openJwt sampleNode Addressed).Step
      (twoUsers markedSfu) (attempt.map (some ·.1)) after ∧
    ¬ Consistent sampleNode.node after.roster := by
  have passes : ((system Seats.sampleConfig TokenFormat.openJwt sampleNode Addressed).follow
      (fun _ => sampleLets Addressed) admitted attempt (twoUsers markedSfu)).any (fun after =>
        decide (after.roster.Bound "room-1" ∧ ¬ after.roster.Occupied "room-1")) = true := by
    decide +kernel
  obtain ⟨after, run, passed⟩ :=
    Turns.exists_of_follow sampleLets_sound admits_of_admitted passes
  obtain ⟨isBound, empty⟩ := of_decide_eq_true passed
  exact ⟨blank_twoUsers markedSfu, after, run, fun consistent =>
    empty ((consistent.binding "room-1").mp isBound)⟩

end Callifornia.Consistency
