import Callifornia.Concurrency.Sequential
import Callifornia.Frame
import Callifornia.Runs
import Callifornia.Signaling.Websocket

/-! # Who is in which room

The parts of the deployment that say which session is in which room: the session hashes
and the nickname reservations, the bindings with the load of the SFUs, the member sets,
the registries of the nodes, the peers of the SFUs and the sessions of the connections.
The handlers change them by the few operations below.
-/

namespace Callifornia

open Concurrency Concurrency.Program FiniteMap Store Signaling

structure Roster where
  sessions : SessionId → Option Hash
  reserved : Nickname → Option String
  bindings : Map RoomId Hash
  loads : Map InstanceId ℤ
  members : Finset (RoomId × Nickname)
  nodes : NodeId → Node
  sfuPeers : Finset (Address × RoomId × Nickname)
  attached : ConnectionId → Option SessionId
  /-- The connections whose channel has a receiving end. -/
  listening : ConnectionId → Bool
  issued : Finset String

/-- The roster of a deployment. -/
def World.roster (world : World) : Roster where
  sessions sessionId := world.redis.hash (.session sessionId)
  reserved nickname := (world.redis.strings.lookup (.nick nickname)).map StringValue.value
  bindings := world.redis.bindings
  loads := world.redis.scores .roomLoad
  members := world.redis.members
  nodes := world.nodes
  sfuPeers := world.sfuPeers
  attached connection := (world.connections connection).context.sessionId
  listening connection := (world.connections connection).receiving
  issued := world.issued

namespace Roster

variable (roster : Roster)

/-! ## What it says -/

/-- The session its hash describes. -/
def session (sessionId : SessionId) : Option SessionState :=
  SessionState.ofFields (((roster.sessions sessionId).map Hash.fields).getD ∅)

/-- The nickname in a session hash. -/
def named (sessionId : SessionId) : Nickname :=
  ((roster.sessions sessionId).bind (·.get "nickname")).getD ""

/-- The room in a session hash. -/
def room (sessionId : SessionId) : Option RoomId :=
  ((roster.sessions sessionId).bind (·.get "room_id")).filter (· ≠ "")

/-- The route the binding of a room describes. -/
def route (roomId : RoomId) : Except RedisRoomError RoomRoute :=
  RoomRoute.ofFields (((roster.bindings.lookup roomId).map Hash.fields).getD ∅)

/-- The address of the SFU of a room, if the route can be read. -/
def sfuAddr (roomId : RoomId) : Option Address :=
  (roster.route roomId).toOption.bind RoomRoute.sfuGrpcAddr

/-- The room has a binding. -/
def Bound (roomId : RoomId) : Prop := (roster.bindings.lookup roomId).isSome

instance (roomId : RoomId) : Decidable (roster.Bound roomId) :=
  inferInstanceAs (Decidable (_ = _))

/-- The room has a member. -/
def Occupied (roomId : RoomId) : Prop := ∃ nickname, (roomId, nickname) ∈ roster.members

instance (roomId : RoomId) : Decidable (roster.Occupied roomId) :=
  decidable_of_iff (∃ place ∈ roster.members, place.1 = roomId)
    ⟨fun ⟨place, member, same⟩ => ⟨place.2, same ▸ member⟩, fun ⟨_, member⟩ => ⟨_, member, rfl⟩⟩

/-- The peers registered on a node. -/
def peers (node : NodeId) : PeerRegistry := (roster.nodes node).peers

/-- What a node remembers of a session. -/
def known (node : NodeId) (sessionId : SessionId) : Option SessionState :=
  (roster.nodes node).sessions.bySessionId.lookup sessionId

/-- The session a node remembers, or else its hash describes. -/
def recalled (node : NodeId) (sessionId : SessionId) : Option SessionState :=
  match roster.known node sessionId with
  | some session => some session
  | none => roster.session sessionId

/-! ## What changes it -/

def setNode (id : NodeId) (node : Node) : Roster :=
  { roster with nodes := Function.update roster.nodes id node }

def withPeers (id : NodeId) (change : PeerRegistry → PeerRegistry) : Roster :=
  roster.setNode id { roster.nodes id with peers := change (roster.nodes id).peers }

def withSessions (id : NodeId) (change : SessionStore → SessionStore) : Roster :=
  roster.setNode id { roster.nodes id with sessions := change (roster.nodes id).sessions }

/-- Attach a connection to a session, or to none. -/
def attach (connection : ConnectionId) (sessionId : Option SessionId) : Roster :=
  { roster with attached := Function.update roster.attached connection sessionId }

/-- Set a field of a session hash. -/
def hset (sessionId : SessionId) (field value : String) : Roster :=
  { roster with
    sessions := Function.update roster.sessions sessionId
      (some (Hash.set (roster.sessions sessionId) field value)) }

/-- Delete a session hash. -/
def deleteSession (sessionId : SessionId) : Roster :=
  { roster with sessions := Function.update roster.sessions sessionId none }

/-- Give up the reservation of a nickname if it is this session's. -/
def release (nickname : Nickname) (sessionId : SessionId) : Roster :=
  { roster with
    reserved := if roster.reserved nickname = some sessionId then
      Function.update roster.reserved nickname none else roster.reserved }

/-- Bind a new room. -/
def bind (roomId : RoomId) (ownerHost ownerPort ownerId : String) (best : SfuInstance) : Roster :=
  { roster with
    bindings := roster.bindings.insert roomId (Redis.newBinding ownerHost ownerPort ownerId best)
    loads := roster.loads.insert best.instanceId
      ((roster.loads.lookup best.instanceId).getD 0 + 1) }

/-- Delete a binding and count it off. -/
def close (roomId : RoomId) : Roster :=
  { roster with
    bindings := roster.bindings.erase roomId
    loads := match (roster.bindings.lookup roomId).bind (·.get "sfu_instance_id") with
      | none => roster.loads
      | some instanceId =>
          roster.loads.insert instanceId (decremented (roster.loads.lookup instanceId)) }

/-- Remove a member of a room that has a binding. -/
def removeMember (roomId : RoomId) (nickname : Nickname) : Roster :=
  if roster.Bound roomId then { roster with members := roster.members.erase (roomId, nickname) }
  else roster

/-- Remove a peer from the SFU of its room, if that is known. -/
def removeSfuPeer (roomId : RoomId) (nickname : Nickname) : Roster :=
  match roster.sfuAddr roomId with
  | none => roster
  | some sfuAddr =>
      { roster with sfuPeers := roster.sfuPeers.erase (sfuAddr, roomId, nickname) }

/-- Close a room that its last member has left. -/
def closeIfLeft (left : Bool) (roomId : RoomId) : Roster :=
  if left ∧ ¬ roster.Occupied roomId then roster.close roomId else roster

/-- Take a peer out of its room everywhere. -/
def detach (node : NodeId) (roomId : RoomId) (nickname : Nickname) : Roster :=
  ((((roster.withPeers node (·.erase (roomId, nickname))).removeMember roomId
      nickname).removeSfuPeer
    roomId nickname).closeIfLeft
      (roster.Bound roomId ∧ (roomId, nickname) ∈ roster.members) roomId)

/-- Take several peers out of a room one after the other. -/
def detachAll (node : NodeId) (roomId : RoomId) (nicknames : List Nickname) : Roster :=
  nicknames.foldl (fun roster nickname => roster.detach node roomId nickname) roster

/-- A member of a room and a peer of its SFU. -/
def enter (sfuAddr : Address) (roomId : RoomId) (nickname : Nickname) : Roster :=
  { roster with
    members := insert (roomId, nickname) roster.members
    sfuPeers := insert (sfuAddr, roomId, nickname) roster.sfuPeers }

/-- Attach a connection to a session that was looked up. -/
def check (node : NodeId) (connection : ConnectionId) (sessionId : SessionId)
    (session : SessionState) : Roster :=
  (roster.attach connection (some sessionId)).withSessions node (·.upsert sessionId session)

/-- Record the room of a session, in the store and at a node. -/
def setRoom (node : NodeId) (sessionId : SessionId) (roomId : Option RoomId) : Roster :=
  (roster.hset sessionId "room_id" (roomId.getD "")).withSessions node (·.setRoom sessionId roomId)

/-- The session has left its room, and these peers with it. -/
def leave (node : NodeId) (sessionId : SessionId) (roomId : RoomId) (nickname : Nickname)
    (victims : List Nickname) : Roster :=
  ((roster.detach node roomId nickname).detachAll node roomId victims).setRoom node sessionId none

/-- The session, its nickname and the room it was in are given up. -/
def logout (node : NodeId) (connection : ConnectionId) (sessionId : SessionId)
    (nickname : Nickname) : Roster :=
  (((roster.release nickname sessionId).deleteSession sessionId).withSessions node
    (·.remove sessionId)).attach connection none

/-- An identifier has been drawn. -/
def draw (id : String) : Roster := { roster with issued := insert id roster.issued }

/-- A peer is registered. -/
def register (node : NodeId) (roomId : RoomId) (nickname : Nickname) (entry : PeerEntry) : Roster :=
  roster.withPeers node (·.insert (roomId, nickname) entry)

/-! ## What the operations do -/

section Operations

variable {roster} {node id : NodeId} {roomId : RoomId} {nickname : Nickname}
  {sessionId : SessionId} {connection : ConnectionId}

/-- The SFU of a room is read from its binding. -/
theorem sfuAddr_congr {other : Roster} (same : other.bindings = roster.bindings) :
    other.sfuAddr roomId = roster.sfuAddr roomId := by
  simp only [sfuAddr, route, same]

/-- The address is in the room's own binding. -/
theorem sfuAddr_eq {other : Roster}
    (same : other.bindings.lookup roomId = roster.bindings.lookup roomId) :
    other.sfuAddr roomId = roster.sfuAddr roomId := by
  simp only [sfuAddr, route, same]

/-- A room without a binding has no SFU. -/
theorem sfuAddr_of_unbound (unbound : roster.bindings.lookup roomId = none) :
    roster.sfuAddr roomId = none := by
  simp only [sfuAddr, route, unbound, Option.map_none, Option.getD_none]
  rfl

/-- Taking a member out leaves the bindings. -/
@[simp] theorem bindings_removeMember :
    (roster.removeMember roomId nickname).bindings = roster.bindings := by
  unfold removeMember
  split <;> rfl

/-- Taking a peer off its SFU leaves the members. -/
@[simp] theorem members_removeSfuPeer :
    (roster.removeSfuPeer roomId nickname).members = roster.members := by
  unfold removeSfuPeer
  split <;> rfl

/-- A detach does not touch the sessions, the reservations or the connections. -/
structure Keeps (before after : Roster) : Prop where
  sessions : after.sessions = before.sessions
  reserved : after.reserved = before.reserved
  attached : after.attached = before.attached
  listening : after.listening = before.listening
  issued : after.issued = before.issued
  known : ∀ id sessionId, after.known id sessionId = before.known id sessionId

/-- Nothing has changed. -/
theorem Keeps.refl (roster : Roster) : Keeps roster roster :=
  ⟨rfl, rfl, rfl, rfl, rfl, fun _ _ => rfl⟩

/-- What two changes keep, both together keep. -/
theorem Keeps.trans {first second third : Roster} (one : Keeps first second)
    (two : Keeps second third) : Keeps first third :=
  ⟨two.sessions.trans one.sessions, two.reserved.trans one.reserved,
    two.attached.trans one.attached, two.listening.trans one.listening, two.issued.trans one.issued,
    fun id sessionId => (two.known id sessionId).trans (one.known id sessionId)⟩

/-- A change of a registry keeps the sessions and the connections. -/
theorem keeps_withPeers {change : PeerRegistry → PeerRegistry} :
    Keeps roster (roster.withPeers node change) := by
  refine ⟨rfl, rfl, rfl, rfl, rfl, fun id sessionId => ?_⟩
  by_cases same : id = node
  · subst id
    simp only [known, withPeers, setNode, Function.update_self]
  · simp only [known, withPeers, setNode, Function.update_of_ne same]

/-- Taking a member out keeps the sessions and the connections. -/
theorem keeps_removeMember : Keeps roster (roster.removeMember roomId nickname) := by
  unfold removeMember
  split
  · exact ⟨rfl, rfl, rfl, rfl, rfl, fun _ _ => rfl⟩
  · exact .refl roster

/-- Taking a peer off its SFU keeps the sessions and the connections. -/
theorem keeps_removeSfuPeer : Keeps roster (roster.removeSfuPeer roomId nickname) := by
  unfold removeSfuPeer
  split
  · exact .refl roster
  · exact ⟨rfl, rfl, rfl, rfl, rfl, fun _ _ => rfl⟩

/-- Closing an empty room keeps the sessions and the connections. -/
theorem keeps_closeIfLeft {left : Bool} : Keeps roster (roster.closeIfLeft left roomId) := by
  unfold closeIfLeft
  split
  · exact ⟨rfl, rfl, rfl, rfl, rfl, fun _ _ => rfl⟩
  · exact .refl roster

/-- Detaching a peer keeps the sessions and the connections. -/
theorem keeps_detach : Keeps roster (roster.detach node roomId nickname) :=
  ((keeps_withPeers.trans keeps_removeMember).trans keeps_removeSfuPeer).trans keeps_closeIfLeft

/-- A detached peer is no member; the members of a room without a binding are left alone. -/
theorem members_detach : (roster.detach node roomId nickname).members =
    if roster.Bound roomId then roster.members.erase (roomId, nickname) else roster.members := by
  have closed (roster : Roster) (left : Bool) :
      (roster.closeIfLeft left roomId).members = roster.members := by
    unfold closeIfLeft
    split <;> rfl
  have removed : ((roster.withPeers node (·.erase (roomId, nickname))).removeMember roomId
      nickname).members =
      if roster.Bound roomId then roster.members.erase (roomId, nickname) else roster.members := by
    by_cases bound : roster.Bound roomId
    · rw [removeMember, if_pos (show (roster.withPeers node _).Bound roomId from bound),
        if_pos bound]
      rfl
    · rw [removeMember, if_neg (show ¬ (roster.withPeers node _).Bound roomId from bound),
        if_neg bound]
      rfl
  rw [detach, closed, members_removeSfuPeer, removed]

/-- A detached peer is gone from one registry. -/
theorem peers_detach : (roster.detach node roomId nickname).peers id =
    if id = node then (roster.peers node).erase (roomId, nickname) else roster.peers id := by
  have closed (roster : Roster) (left : Bool) :
      (roster.closeIfLeft left roomId).peers id = roster.peers id := by
    unfold closeIfLeft
    split <;> rfl
  have gone (roster : Roster) : (roster.removeSfuPeer roomId nickname).peers id =
      roster.peers id := by
    unfold removeSfuPeer
    split <;> rfl
  have removed (roster : Roster) : (roster.removeMember roomId nickname).peers id =
      roster.peers id := by
    unfold removeMember
    split <;> rfl
  rw [detach, closed, gone, removed]
  by_cases same : id = node
  · subst id
    simp only [peers, withPeers, setNode, Function.update_self, if_true]
  · simp only [peers, withPeers, setNode, Function.update_of_ne same, if_neg same]

/-- A detached peer is gone from the SFU that the binding names. -/
theorem sfuPeers_detach : (roster.detach node roomId nickname).sfuPeers =
    match roster.sfuAddr roomId with
    | none => roster.sfuPeers
    | some sfuAddr => roster.sfuPeers.erase (sfuAddr, roomId, nickname) := by
  have closed (roster : Roster) (left : Bool) :
      (roster.closeIfLeft left roomId).sfuPeers = roster.sfuPeers := by
    unfold closeIfLeft
    split <;> rfl
  have removed (roster : Roster) : (roster.removeMember roomId nickname).sfuPeers =
      roster.sfuPeers := by
    unfold removeMember
    split <;> rfl
  rw [detach, closed, removeSfuPeer, sfuAddr_congr bindings_removeMember]
  have same : (roster.withPeers node (·.erase (roomId, nickname))).sfuAddr roomId =
      roster.sfuAddr roomId := sfuAddr_congr rfl
  rw [same]
  split
  · exact removed _
  · rw [removed]
    rfl

/-- The detach that takes the last member out closes the room. -/
theorem detach_cases :
    (((roster.Bound roomId ∧ (roomId, nickname) ∈ roster.members) ∧
        ¬ (roster.detach node roomId nickname).Occupied roomId) ∧
      (roster.detach node roomId nickname).bindings = (roster.close roomId).bindings ∧
      (roster.detach node roomId nickname).loads = (roster.close roomId).loads) ∨
    (¬ ((roster.Bound roomId ∧ (roomId, nickname) ∈ roster.members) ∧
        ¬ (roster.detach node roomId nickname).Occupied roomId) ∧
      (roster.detach node roomId nickname).bindings = roster.bindings ∧
      (roster.detach node roomId nickname).loads = roster.loads) := by
  have closed (roster : Roster) (left : Bool) :
      ((left ∧ ¬ (roster.closeIfLeft left roomId).Occupied roomId) ∧
        (roster.closeIfLeft left roomId) = roster.close roomId) ∨
      (¬ (left ∧ ¬ (roster.closeIfLeft left roomId).Occupied roomId) ∧
        (roster.closeIfLeft left roomId) = roster) := by
    by_cases leaves : left ∧ ¬ roster.Occupied roomId
    · rw [closeIfLeft, if_pos leaves]
      exact .inl ⟨leaves, rfl⟩
    · rw [closeIfLeft, if_neg leaves]
      exact .inr ⟨leaves, rfl⟩
  have gone (roster : Roster) : (roster.removeSfuPeer roomId nickname).bindings = roster.bindings ∧
      (roster.removeSfuPeer roomId nickname).loads = roster.loads := by
    unfold removeSfuPeer
    split <;> exact ⟨rfl, rfl⟩
  have removed (roster : Roster) : (roster.removeMember roomId nickname).bindings =
      roster.bindings ∧ (roster.removeMember roomId nickname).loads = roster.loads := by
    unfold removeMember
    split <;> exact ⟨rfl, rfl⟩
  rcases closed (((roster.withPeers node (·.erase (roomId, nickname))).removeMember roomId
      nickname).removeSfuPeer roomId nickname)
      (roster.Bound roomId ∧ (roomId, nickname) ∈ roster.members) with
        ⟨leaves, same⟩ | ⟨stays, same⟩
  · refine .inl ⟨?_, ?_⟩
    · simp only [decide_eq_true_eq] at leaves
      exact leaves
    · change (closeIfLeft ..).bindings = _ ∧ (closeIfLeft ..).loads = _
      rw [same]
      simp only [close, gone, removed]
      exact ⟨rfl, rfl⟩
  · refine .inr ⟨?_, ?_⟩
    · simp only [decide_eq_true_eq] at stays
      exact stays
    · change (closeIfLeft ..).bindings = _ ∧ (closeIfLeft ..).loads = _
      rw [same]
      simp only [gone, removed]
      exact ⟨rfl, rfl⟩

/-! ## What they do to a session -/

/-- A session as the services read it has its hash's nickname and room. -/
theorem session_eq : roster.session sessionId =
    (roster.sessions sessionId).map fun _ => ⟨roster.named sessionId, roster.room sessionId⟩ := by
  unfold session named room
  cases roster.sessions sessionId with
  | none => rfl
  | some hash => exact if_neg hash.nonempty

/-- A session is read if its hash is there. -/
theorem session_eq_some {session : SessionState} : roster.session sessionId = some session ↔
    (roster.sessions sessionId).isSome ∧ session.nickname = roster.named sessionId ∧
      session.roomId = roster.room sessionId := by
  rw [session_eq]
  cases roster.sessions sessionId with
  | none => simp only [Option.map_none, reduceCtorEq, Option.isSome_none, Bool.false_eq_true,
      false_and]
  | some hash =>
      simp only [Option.map_some, Option.some.injEq, Option.isSome_some, true_and]
      constructor
      · rintro rfl
        exact ⟨rfl, rfl⟩
      · rintro ⟨nickname, room⟩
        rw [← nickname, ← room]

/-- A write of a field changes one hash. -/
theorem sessions_hset (query : SessionId) (field value : String) :
    (roster.hset sessionId field value).sessions query =
      if query = sessionId then some (Hash.set (roster.sessions sessionId) field value)
      else roster.sessions query := by
  by_cases same : query = sessionId
  · subst query
    simp only [hset, Function.update_self, if_true]
  · simp only [hset, Function.update_of_ne same, if_neg same]

/-- A write changes one field of one hash. -/
theorem get_hset (query : SessionId) (field value name : String) :
    ((roster.hset sessionId field value).sessions query).bind (·.get name) =
      if query = sessionId ∧ name = field then some value
      else (roster.sessions query).bind (·.get name) := by
  rw [sessions_hset]
  by_cases same : query = sessionId
  · subst query
    simp only [if_true, Option.bind_some, Hash.get_set, true_and]
  · simp only [same, false_and, if_false]

/-- A write of another field keeps the nickname. -/
theorem named_hset {field value : String} (other : field ≠ "nickname") (query : SessionId) :
    (roster.hset sessionId field value).named query = roster.named query := by
  rw [named, get_hset, if_neg fun both => other both.2.symm]
  rfl

/-- A write of another field keeps the room. -/
theorem room_hset {field value : String} (other : field ≠ "room_id") (query : SessionId) :
    (roster.hset sessionId field value).room query = roster.room query := by
  rw [room, get_hset, if_neg fun both => other both.2.symm]
  rfl

/-- The room of a session is set, or cleared with an empty text. -/
theorem room_setRoom (roomId : Option RoomId) (nonempty : roomId ≠ some "") (query : SessionId) :
    (roster.setRoom node sessionId roomId).room query =
      if query = sessionId then roomId else roster.room query := by
  change ((roster.hset sessionId "room_id" (roomId.getD "")).sessions query |>.bind
    (·.get "room_id")).filter (· ≠ "") = _
  rw [get_hset]
  by_cases same : query = sessionId
  · subst query
    simp only [and_self, if_true]
    cases roomId with
    | none => rfl
    | some roomId =>
        have named : roomId ≠ "" := fun equal => nonempty (congrArg some equal)
        simp only [Option.getD_some, Option.filter, decide_eq_true_eq, ne_eq, if_pos named]
  · simp only [same, false_and, if_false]
    rfl

/-- Setting the room keeps the nickname. -/
theorem named_setRoom (roomId : Option RoomId) (query : SessionId) :
    (roster.setRoom node sessionId roomId).named query = roster.named query :=
  named_hset (by decide) query

/-- A change of one table changes what that node knows. -/
theorem known_withSessions {change : SessionStore → SessionStore} (query : SessionId) :
    (roster.withSessions node change).known id query =
      if id = node then (change (roster.nodes node).sessions).bySessionId.lookup query
      else roster.known id query := by
  by_cases same : id = node
  · subst id
    simp only [known, withSessions, setNode, Function.update_self, if_true]
  · simp only [known, withSessions, setNode, Function.update_of_ne same, if_neg same]

/-- A change of the tables keeps the registries. -/
theorem peers_withSessions {change : SessionStore → SessionStore} :
    (roster.withSessions node change).peers id = roster.peers id := by
  by_cases same : id = node
  · subst id
    simp only [peers, withSessions, setNode, Function.update_self]
  · simp only [peers, withSessions, setNode, Function.update_of_ne same]

/-- A registered peer is in one registry. -/
theorem peers_register {entry : PeerEntry} :
    (roster.register node roomId nickname entry).peers id =
      if id = node then (roster.peers node).insert (roomId, nickname) entry
      else roster.peers id := by
  by_cases same : id = node
  · subst id
    simp only [peers, register, withPeers, setNode, Function.update_self, if_true]
  · simp only [peers, register, withPeers, setNode, Function.update_of_ne same, if_neg same]

end Operations

end Roster

/-! ## Steps -/

namespace World

variable {op : Op} {world after : World} {reply : op.Reply}

/-- The step leaves the roster as it is. -/
def Silent : Op → Prop
  | .redis .ping | .redis (.exists _) | .redis (.hget ..) | .redis (.hgetall _)
  | .redis (.expire ..) | .redis (.sismember ..) | .redis (.scard _) | .redis (.smembers _)
  | .redis (.zscore ..) | .redis (.get _) | .redis (.hgetInstance _)
  | .redis (.hsetInstance ..) => True
  | .redis (.zadd set ..) | .redis (.zincr set ..) => set ≠ .roomLoad
  | .redis (.setNx key ..) | .redis (.compareAndDel key _) => ∀ nickname, key ≠ .nick nickname
  | .peers _ (.targets ..) | .sessions _ (.get _) => True
  | .unixNow | .trySend .. | .sendMessage .. | .getContext _ | .handleSdp ..
  | .addIceCandidate .. => True
  | _ => False

/-- The roster sees of a connection's state its session and whether its channel is received
from. -/
theorem roster_setConnection {connection : ConnectionId} {state : Connection}
    (receives : state.receiving = (world.connections connection).receiving) :
    (world.setConnection connection state).roster =
      world.roster.attach connection state.context.sessionId := by
  have attached : (fun query =>
      ((world.setConnection connection state).connections query).context.sessionId) =
      Function.update (fun query => (world.connections query).context.sessionId) connection
        state.context.sessionId := by
    funext query
    by_cases equal : query = connection
    · subst query
      simp only [setConnection, Function.update_self]
    · simp only [setConnection, Function.update_of_ne equal]
  have listening : (fun query =>
      ((world.setConnection connection state).connections query).receiving) =
      fun query => (world.connections query).receiving := by
    funext query
    by_cases equal : query = connection
    · subst query
      simp only [setConnection, Function.update_self, receives]
    · simp only [setConnection, Function.update_of_ne equal]
  simp only [roster, attached, listening]
  rfl

/-- A change of the rest of a context is no change of the roster. -/
theorem roster_setConnection_same {connection : ConnectionId} {state : Connection}
    (receives : state.receiving = (world.connections connection).receiving)
    (same : state.context.sessionId = (world.connections connection).context.sessionId) :
    (world.setConnection connection state).roster = world.roster := by
  rw [roster_setConnection receives, same, Roster.attach]
  have unchanged : Function.update world.roster.attached connection
      (world.connections connection).context.sessionId = world.roster.attached :=
    Function.update_eq_self _ _
  rw [unchanged]

/-- The roster does not see deadlines. -/
theorem roster_expire {sessionId : SessionId} {seconds : ℕ} :
    ({ world with
      redis := { world.redis with
        sessions := adjust world.redis.sessions sessionId fun session =>
          { session with deadline := some (world.now + seconds * 1000) } } } : World).roster =
      world.roster := by
  have sessions (query : SessionId) :
      ((adjust world.redis.sessions sessionId fun session =>
        ({ session with deadline := some (world.now + seconds * 1000) } : SessionHash)).lookup
          query).map SessionHash.hash =
        (world.redis.sessions.lookup query).map SessionHash.hash := by
    rw [lookup_adjust]
    by_cases equal : query = sessionId
    · subst query
      simp only [if_true, Option.map_map]
      rfl
    · simp only [if_neg equal]
  simp only [roster, Redis.hash, sessions]

/-- A silent step keeps the roster. -/
theorem exec_silent (step : World.exec op world reply after) (silent : Silent op) :
    after.roster = world.roster := by
  cases op with
  | redis command =>
      obtain ⟨value, redis, effect, -, rfl⟩ := step
      cases command with
      | zadd set | zincr set =>
          obtain rfl : redis = _ := effect
          have loads (scores : Map String ℤ) :
              Function.update world.redis.scores set scores .roomLoad =
                world.redis.scores .roomLoad :=
            Function.update_of_ne (Ne.symm silent) _ _
          simp only [roster, Redis.zadd, Redis.setScores, loads]
          rfl
      | setNx key =>
          rcases Redis.exec_setNx effect with rfl | rfl
          · rfl
          · simp only [roster, Finmap.lookup_insert_of_ne _ (Ne.symm (silent _))]
            rfl
      | compareAndDel key =>
          rcases Redis.exec_compareAndDel effect with rfl | rfl
          · rfl
          · simp only [roster, Finmap.lookup_erase_ne (Ne.symm (silent _))]
            rfl
      | expire =>
          obtain ⟨-, rfl⟩ := effect
          exact roster_expire
      | ping | hsetInstance =>
          obtain rfl : redis = _ := effect
          rfl
      | «exists» | hget | hgetall | sismember | scard | smembers | zscore | get | hgetInstance =>
          obtain ⟨-, rfl⟩ := effect
          rfl
      | _ => exact silent.elim
  | peers node command =>
      cases command with
      | targets =>
          obtain ⟨_, ⟨-, rfl⟩, rfl⟩ := step
          simp only [roster, setNode, Function.update_eq_self]
      | _ => exact silent.elim
  | sessions node command =>
      cases command with
      | get =>
          obtain ⟨_, ⟨-, rfl⟩, rfl⟩ := step
          simp only [roster, setNode, Function.update_eq_self]
      | _ => exact silent.elim
  | trySend sender =>
      obtain ⟨-, rfl⟩ := step
      split
      · exact roster_setConnection_same rfl rfl
      · rfl
  | sendMessage connection =>
      obtain rfl : after = _ := step
      split
      · exact roster_setConnection_same rfl rfl
      · rfl
  | unixNow | getContext | handleSdp | addIceCandidate =>
      obtain ⟨-, rfl⟩ := step
      rfl
  | _ => exact silent.elim

/-- What `HSET` of a session does to the roster. -/
theorem roster_hset {sessionId : SessionId} {field value : String} :
    ({ world with redis := world.redis.hset (.session sessionId) field value } : World).roster =
      world.roster.hset sessionId field value := by
  have sessions : (fun query => (world.redis.hset (.session sessionId) field value).hash
      (.session query)) = Function.update (fun query => world.redis.hash (.session query)) sessionId
        (some (Hash.set (world.redis.hash (.session sessionId)) field value)) := by
    funext query
    by_cases equal : query = sessionId
    · subst query
      simp only [Redis.hash, Redis.hset, Finmap.lookup_insert, Option.map_some,
        Function.update_self]
    · simp only [Redis.hash, Redis.hset, Finmap.lookup_insert_of_ne _ equal,
        Function.update_of_ne equal]
  simp only [roster, sessions]
  rfl

/-- What `DEL` of a session does to the roster. -/
theorem roster_deleteSession {sessionId : SessionId} :
    ({ world with redis := world.redis.delHash (.session sessionId) } : World).roster =
      world.roster.deleteSession sessionId := by
  have sessions : (fun query => (world.redis.delHash (.session sessionId)).hash
      (.session query)) = Function.update (fun query => world.redis.hash (.session query)) sessionId
        none := by
    funext query
    by_cases equal : query = sessionId
    · subst query
      simp only [Redis.hash, Redis.delHash, Finmap.lookup_erase, Option.map_none,
        Function.update_self]
    · simp only [Redis.hash, Redis.delHash, Finmap.lookup_erase_ne equal,
        Function.update_of_ne equal]
  simp only [roster, sessions]
  rfl

/-- What a new load of an instance does to the roster. -/
theorem roster_zadd {instanceId : InstanceId} {score : ℤ} :
    ({ world with redis := world.redis.zadd .roomLoad instanceId score } : World).roster =
      { world.roster with loads := world.roster.loads.insert instanceId score } := by
  simp only [roster, Redis.zadd, Redis.setScores, Function.update_self]
  rfl

/-- What an assignment does to the roster. -/
theorem roster_assign {roomId : RoomId} {ownerHost ownerPort ownerId : String}
    {best : SfuInstance} :
    ({ world with
      redis := world.redis.assign roomId ownerHost ownerPort ownerId best } : World).roster =
      world.roster.bind roomId ownerHost ownerPort ownerId best := by
  simp only [roster, Redis.assign, Redis.zadd, Redis.setScores, Function.update_self]
  rfl

/-- What the release of a nickname does to the roster. -/
theorem roster_release {nickname : Nickname} {sessionId : SessionId} {redis : Redis} {reply : ℕ}
    (effect : world.redis.exec world.now (.compareAndDel (.nick nickname) sessionId) reply redis) :
    ({ world with redis } : World).roster = world.roster.release nickname sessionId := by
  simp only [Redis.exec] at effect
  split at effect
  · rename_i held
    obtain ⟨-, rfl⟩ := effect
    have reserved : (fun query => ((world.redis.strings.erase (.nick nickname)).lookup
        (.nick query)).map StringValue.value) =
        Function.update (fun query => (world.redis.strings.lookup (.nick query)).map
          StringValue.value) nickname none := by
      funext query
      by_cases equal : query = nickname
      · subst query
        simp only [Finmap.lookup_erase, Option.map_none, Function.update_self]
      · rw [Finmap.lookup_erase_ne fun same => equal (StringKey.nick.inj same),
          Function.update_of_ne equal]
    simp only [roster, Roster.release, held, if_true, reserved]
    rfl
  · rename_i other
    obtain ⟨-, rfl⟩ := effect
    simp only [roster, Roster.release, other, if_false]

end World

end Callifornia
