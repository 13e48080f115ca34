import Callifornia.Replay
import Callifornia.Signaling.Footprint
import Callifornia.Supervisor.Footprint

/-! # Closing a room of a dead SFU

The supervisor tells the owner of each room of the dead SFU to close its rooms,
and then deletes the bindings. The owner's task, spawned by the call, recognises
the rooms to close by their bindings. A room whose binding is deleted before a
task has read it is never closed on the node.
-/

namespace Callifornia.DeadSfu

open Concurrency Concurrency.System FiniteMap Store Signaling Supervisor

/-- A room on an SFU, as its owner and the store know it at the start. -/
structure Scene where
  state : State
  room : RoomId
  sfuAddr : Address
  /-- The peers registered on the owner. -/
  peers : PeerRegistry
  binding : Hash
  named : room ≠ ""
  /-- The binding routes the room to the SFU. -/
  routed : ∃ route, RoomRoute.ofFields binding.fields = .ok route ∧
    route.sfuGrpcAddr = some sfuAddr

/-- How far a run is with the room. -/
inductive Phase
  /-- The supervisor has not ended its scan, which has or has not returned the room. -/
  | scanning (seen : Bool) (cursor : Cursor)
  /-- The supervisor has the room still before it. -/
  | searching
  /-- The supervisor knows that the binding is gone. -/
  | gone
  /-- A task of the owner that has not started. -/
  | waiting
  /-- It has the list of the room's participants. -/
  | listed (participants : List Nickname)
  /-- It has read the room's route. -/
  | routed (participants : List Nickname)
  /-- It closes the room: participants to unregister, peers to send to. -/
  | closing (participants : List Nickname) (targets : List (Nickname × ConnectionId))
  /-- It has taken the sessions out of the room: those to clear in the store. -/
  | cleared (sessionIds : List SessionId)
  /-- A task of another node. -/
  | elsewhere
  deriving DecidableEq

namespace Phase

variable (room : RoomId)

/-- The participants a snapshot lists for the room. -/
def listedIn (rooms : List (RoomId × List Nickname)) : List Nickname :=
  ((rooms.find? (·.1 = room)).map Prod.snd).getD []

/-- The scan after one more page. -/
def scanned (seen : Bool) : Cursor → Phase
  | some owed => .scanning seen (some owed)
  | none => if seen then .searching else .gone

def advance : Phase → (op : Op) → op.Reply → Phase
  | .scanning seen _, .redis (.scan .bindings _), .ok page =>
      scanned (seen || decide (room ∈ page.1)) page.2
  | .searching, .redis (.hgetall (.binding roomId)), .ok values =>
      if roomId = room ∧ values = ∅ then .gone else .searching
  | .searching, .redis (.del (.binding roomId)), _ => if roomId = room then .gone else .searching
  | .waiting, .peers _ .snapshotRooms, rooms => .listed (listedIn room rooms)
  | .listed participants, .redis (.hgetall (.binding roomId)), .ok values =>
      if roomId = room ∧ values ≠ ∅ then .routed participants else .listed participants
  | .routed participants, .peers _ (.targets ..), targets => .closing participants targets
  | .closing participants targets, .trySend .., _ => .closing participants targets.tail
  | .closing participants targets, .peers _ (.unregister _ nickname), _ =>
      .closing (participants.filter (· ≠ nickname)) targets
  | .closing .., .sessions _ (.clearRoom _), affected => .cleared affected
  | .cleared sessionIds, .redis (.hset (.session sessionId) _ _), _ =>
      .cleared (sessionIds.filter (· ≠ sessionId))
  | phase, _, _ => phase

/-- A task that has read the room's route. -/
def Committed : Phase → Prop
  | .routed _ | .closing .. | .cleared _ => True
  | _ => False

instance : DecidablePred Committed := fun phase => by
  unfold Committed
  split <;> infer_instance

end Phase

/-- Runs of the supervisor's handling of the SFU, and the tasks its calls spawn.
The ghost tells whether the supervisor has finished. -/
def threads (scene : Scene) : Threads where
  Phase := Phase
  Ghost := Bool
  Result := Unit
  advance := Phase.advance scene.room
  start before _ phase program after :=
    (∃ config : Supervisor.Config, after = before ∧ phase = .scanning false none ∧
      program = handleDeadSfu config scene.sfuAddr) ∨
    ∃ task ∈ before.1.spawned, ∃ state : State, task.sfuAddr = scene.sfuAddr ∧
      state.node = task.node ∧
      after = ({ before.1 with spawned := before.1.spawned.erase task }, before.2) ∧
      program = state.closeRoomsDueToSfuAddr task.sfuAddr task.reason ∧
      phase = if state.node = scene.state.node then .waiting else .elsewhere
  finish state phase _ := (state.1, state.2 || decide (phase = .gone))
  assumed _ op reply :=
    match op, reply with
    | .trySend .., sent => sent = true
    | _, _ => True

section

variable (scene : Scene) (world : World)

/-- The room's binding is there. -/
def Open : Prop := (world.redis.bindings.lookup scene.room).isSome

instance : Decidable (Open scene world) := inferInstanceAs (Decidable (_ = _))

/-- The registries of the owner. -/
def owner : Node := world.nodes scene.state.node

/-- The participant is registered on the owner. -/
def Registered (nickname : Nickname) : Prop := (scene.room, nickname) ∈ (owner scene world).peers

/-- The outbound channel was sent that the room is closed. -/
def Sent (sender : ConnectionId) : Prop :=
  ∃ reason, .roomClosed scene.room reason ∈ (world.connections sender).queue

/-- The session is in the owner's set of sessions of the room. -/
def Linked (sessionId : SessionId) : Prop :=
  sessionId ∈ ((owner scene world).sessions.byRoomId.lookup scene.room).getD ∅

/-- The session's state on the owner names the room. -/
def InRoom (sessionId : SessionId) : Prop :=
  ∃ session, (owner scene world).sessions.bySessionId.lookup sessionId = some session ∧
    session.roomId = some scene.room

/-- The session's hash in the store names the room. -/
def Recorded (sessionId : SessionId) : Prop :=
  ∃ session, world.redis.sessions.lookup sessionId = some session ∧
    session.hash.get "room_id" = some scene.room

/-- Every participant was sent that the room is closed. -/
def AllSent : Prop :=
  ∀ nickname entry, scene.peers.lookup (scene.room, nickname) = some entry →
    Sent scene world entry.sender

/-- On the owner, the room is closed for everyone. -/
structure Closed : Prop where
  unregistered : ∀ nickname, ¬ Registered scene world nickname
  sent : AllSent scene world
  left : ∀ sessionId, ¬ InRoom scene world sessionId
  unlinked : ∀ sessionId, ¬ Linked scene world sessionId

/-- The room before anything happens: bound to the SFU, with its participants and
their sessions known to its owner alone. -/
structure Live : Prop where
  bound : world.redis.bindings.lookup scene.room = some scene.binding
  peers : (owner scene world).peers = scene.peers
  alone : ∀ node nickname, node ≠ scene.state.node →
    (scene.room, nickname) ∉ (world.nodes node).peers
  linked : ∀ sessionId, InRoom scene world sessionId → Linked scene world sessionId
  known : ∀ sessionId, Linked scene world sessionId →
    sessionId ∈ (owner scene world).sessions.bySessionId
  recorded : ∀ sessionId, Recorded scene world sessionId → Linked scene world sessionId

/-- The supervisor deletes the room's binding only if it is gone already, or a task
of the owner has read it. -/
def Allowed : Phase → Op → Multiset Phase → Prop
  | .searching, .redis (.del (.binding roomId)), others =>
      roomId = scene.room → Open scene world → ∃ other ∈ others, other.Committed
  | _, _, _ => True

end

def guard (scene : Scene) : (threads scene).system.Guard :=
  fun state phase op others => Allowed scene state.1 phase op others

/-- What a run has established about the room. -/
def Phase.Fits (scene : Scene) (world : World) : Phase → Prop
  | .scanning seen cursor => Open scene world → seen = true ∨ ∀ owed ∈ cursor, scene.room ∈ owed
  | .gone => ¬ Open scene world
  | .listed participants | .routed participants =>
      ∀ nickname, Registered scene world nickname → nickname ∈ participants
  | .closing participants targets =>
      (∀ nickname, Registered scene world nickname → nickname ∈ participants) ∧
        ∀ nickname entry, scene.peers.lookup (scene.room, nickname) = some entry →
          Sent scene world entry.sender ∨ (nickname, entry.sender) ∈ targets
  | .cleared _ => Closed scene world
  | _ => True

/-- The session is still to be cleared in the store by this run. -/
def Phase.Owes (sessionId : SessionId) : Phase → Prop
  | .cleared sessionIds => sessionId ∈ sessionIds
  | _ => False

/-- How the room, its participants and the runs in progress fit together. -/
structure Progress (scene : Scene) (state : World × Bool) (phases : Multiset Phase) : Prop where
  binding : ∀ hash, state.1.redis.bindings.lookup scene.room = some hash → hash = scene.binding
  fewer : ∀ nickname entry, (owner scene state.1).peers.lookup (scene.room, nickname) = some entry →
    scene.peers.lookup (scene.room, nickname) = some entry
  reached : ∀ nickname entry, scene.peers.lookup (scene.room, nickname) = some entry →
    Registered scene state.1 nickname ∨ Sent scene state.1 entry.sender
  alone : ∀ node nickname, node ≠ scene.state.node →
    (scene.room, nickname) ∉ (state.1.nodes node).peers
  linked : ∀ sessionId, InRoom scene state.1 sessionId → Linked scene state.1 sessionId
  known : ∀ sessionId, Linked scene state.1 sessionId →
    sessionId ∈ (owner scene state.1).sessions.bySessionId
  recorded : ∀ sessionId, Recorded scene state.1 sessionId → Linked scene state.1 sessionId ∨
    ∃ phase ∈ phases, phase.Owes sessionId
  fits : ∀ phase ∈ phases, phase.Fits scene state.1
  covered : Open scene state.1 ∨ (∃ phase ∈ phases, phase.Committed) ∨ Closed scene state.1
  handled : state.2 = true → ¬ Open scene state.1

def outline (scene : Scene) : Outline (threads scene).system where
  guard := guard scene
  inv := Progress scene
  asserts _ _ _ := True

variable {scene : Scene} {world after : World} {handled : Bool} {others phases : Multiset Phase}
  {phase next : Phase}

/-! ## What a step may take back -/

/-- The step opens nothing, registers nobody and takes no message back. -/
structure Less (scene : Scene) (world after : World) : Prop where
  peers : ∀ node nickname entry,
    (after.nodes node).peers.lookup (scene.room, nickname) = some entry →
      (world.nodes node).peers.lookup (scene.room, nickname) = some entry
  links : ∀ sessionId, Linked scene after sessionId → Linked scene world sessionId
  inRoom : ∀ sessionId, InRoom scene after sessionId → InRoom scene world sessionId
  sent : ∀ sender, Sent scene world sender → Sent scene after sender
  binding : ∀ hash, after.redis.bindings.lookup scene.room = some hash →
    world.redis.bindings.lookup scene.room = some hash
  recorded : ∀ sessionId, Recorded scene after sessionId → Recorded scene world sessionId

namespace Less

/-- Who is registered after a loss was registered before. -/
theorem registered (less : Less scene world after) {nickname : Nickname}
    (registered : Registered scene after nickname) : Registered scene world nickname := by
  obtain ⟨entry, found⟩ := Finmap.mem_iff.mp registered
  exact Finmap.mem_of_lookup_eq_some (less.peers _ nickname entry found)

/-- A room that is open after a loss was open before. -/
theorem opened (less : Less scene world after) (opened : Open scene after) :
    Open scene world := by
  obtain ⟨hash, found⟩ := Option.isSome_iff_exists.mp opened
  exact Option.isSome_iff_exists.mpr ⟨hash, less.binding hash found⟩

/-- A closed room stays closed when more is lost. -/
theorem closed (less : Less scene world after) (closed : Closed scene world) :
    Closed scene after where
  unregistered nickname registered := closed.unregistered nickname (less.registered registered)
  sent nickname entry found := less.sent _ (closed.sent nickname entry found)
  left sessionId inside := closed.left sessionId (less.inRoom sessionId inside)
  unlinked sessionId linked := closed.unlinked sessionId (less.links sessionId linked)

/-- What a task relies on survives a loss. -/
theorem fits (less : Less scene world after) (fits : phase.Fits scene world) :
    phase.Fits scene after := by
  cases phase with
  | scanning seen cursor => exact fun present => fits (less.opened present)
  | gone => exact fun present => fits (less.opened present)
  | listed participants | routed participants =>
      exact fun nickname registered => fits nickname (less.registered registered)
  | closing participants targets =>
      refine ⟨fun nickname registered => fits.1 nickname (less.registered registered), ?_⟩
      exact fun nickname entry found => (fits.2 nickname entry found).imp_left (less.sent _)
  | cleared sessionIds => exact less.closed fits
  | searching | waiting | elsewhere => trivial

end Less

/-- A run takes a step: what has to be checked beside the fact that nothing is new. -/
theorem Progress.step (progress : Progress scene (world, handled) (phase ::ₘ others))
    (less : Less scene world after)
    (reached : ∀ nickname entry, scene.peers.lookup (scene.room, nickname) = some entry →
      Registered scene world nickname → Registered scene after nickname ∨
        Sent scene after entry.sender)
    (linked : ∀ sessionId, InRoom scene after sessionId → Linked scene world sessionId →
      Linked scene after sessionId)
    (known : ∀ sessionId, Linked scene after sessionId →
      sessionId ∈ (owner scene world).sessions.bySessionId →
        sessionId ∈ (owner scene after).sessions.bySessionId)
    (recorded : ∀ sessionId, Recorded scene after sessionId →
      Linked scene world sessionId ∨ phase.Owes sessionId →
        Linked scene after sessionId ∨ next.Owes sessionId)
    (fits : next.Fits scene after)
    (covered : Open scene world ∨ phase.Committed → Open scene after ∨
      (next.Committed ∨ ∃ other ∈ others, other.Committed) ∨ Closed scene after) :
    Progress scene (after, handled) (next ::ₘ others) where
  binding hash found := progress.binding hash (less.binding hash found)
  fewer nickname entry found := progress.fewer nickname entry (less.peers _ nickname entry found)
  reached nickname entry found :=
    (progress.reached nickname entry found).elim (reached nickname entry found)
      fun sent => .inr (less.sent _ sent)
  alone node nickname other member := by
    obtain ⟨entry, found⟩ := Finmap.mem_iff.mp member
    exact progress.alone node nickname other
      (Finmap.mem_of_lookup_eq_some (less.peers node nickname entry found))
  linked sessionId inside :=
    linked sessionId inside (progress.linked sessionId (less.inRoom sessionId inside))
  known sessionId linked :=
    known sessionId linked (progress.known sessionId (less.links sessionId linked))
  recorded sessionId recordedAfter := by
    have before := progress.recorded sessionId (less.recorded sessionId recordedAfter)
    simp only [Multiset.mem_cons, exists_eq_or_imp] at before ⊢
    rcases before with link | own | other
    · exact (recorded sessionId recordedAfter (.inl link)).imp_right .inl
    · exact (recorded sessionId recordedAfter (.inr own)).imp_right .inl
    · exact .inr (.inr other)
  fits other listed := by
    rcases Multiset.mem_cons.mp listed with same | listed
    · rw [same]
      exact fits
    · exact less.fits (progress.fits other (Multiset.mem_cons_of_mem listed))
  covered := by
    have before := progress.covered
    simp only [Multiset.mem_cons, exists_eq_or_imp] at before ⊢
    rcases before with opened | (own | other) | closed
    · exact covered (.inl opened)
    · exact covered (.inr own)
    · exact .inr (.inl (.inr other))
    · exact .inr (.inr (less.closed closed))
  handled done := fun present => progress.handled done (less.opened present)

/-! ## Steps that do not concern the room -/

/-- The step changes nothing of the room; messages may be sent. -/
structure Same (scene : Scene) (world after : World) : Prop where
  peers : ∀ node nickname, (after.nodes node).peers.lookup (scene.room, nickname) =
    (world.nodes node).peers.lookup (scene.room, nickname)
  links : ∀ sessionId, Linked scene after sessionId ↔ Linked scene world sessionId
  known : ∀ sessionId, sessionId ∈ (owner scene world).sessions.bySessionId →
    sessionId ∈ (owner scene after).sessions.bySessionId
  inRoom : ∀ sessionId, InRoom scene after sessionId → InRoom scene world sessionId
  sent : ∀ sender, Sent scene world sender → Sent scene after sender
  binding : after.redis.bindings.lookup scene.room = world.redis.bindings.lookup scene.room
  recorded : ∀ sessionId, Recorded scene after sessionId → Recorded scene world sessionId

namespace Same

/-- Nothing has changed. -/
theorem refl (scene : Scene) (world : World) : Same scene world world :=
  ⟨fun _ _ => rfl, fun _ => Iff.rfl, fun _ member => member, fun _ inside => inside,
    fun _ sent => sent, rfl, fun _ recorded => recorded⟩

/-- Where the room is the same nothing has been gained. -/
theorem less (same : Same scene world after) : Less scene world after where
  peers node nickname _ found := same.peers node nickname ▸ found
  links sessionId := (same.links sessionId).mp
  inRoom := same.inRoom
  sent := same.sent
  binding _ found := same.binding ▸ found
  recorded := same.recorded

/-- The same participants are registered. -/
theorem registered (same : Same scene world after) {nickname : Nickname} :
    Registered scene after nickname ↔ Registered scene world nickname := by
  rw [Registered, Registered, Finmap.mem_iff, Finmap.mem_iff, owner, owner, same.peers]

/-- The room is as open as before. -/
theorem open_iff (same : Same scene world after) : Open scene after ↔ Open scene world := by
  rw [Open, Open, same.binding]

end Same

/-- A run moves on by a step that changes nothing of the room. -/
theorem Progress.move (progress : Progress scene (world, handled) (phase ::ₘ others))
    (same : Same scene world after) (fits : next.Fits scene after)
    (owes : ∀ sessionId, Recorded scene after sessionId → phase.Owes sessionId →
      next.Owes sessionId)
    (committed : phase.Committed → next.Committed) :
    Progress scene (after, handled) (next ::ₘ others) := by
  refine progress.step same.less ?_ ?_ ?_ ?_ fits ?_
  · exact fun nickname entry _ registered => .inl (same.registered.mpr registered)
  · exact fun sessionId _ linked => (same.links sessionId).mpr linked
  · exact fun sessionId _ member => same.known sessionId member
  · exact fun sessionId recorded either =>
      either.imp (same.links sessionId).mpr (owes sessionId recorded)
  · exact fun either => either.imp same.open_iff.mpr fun own => .inl (.inl (committed own))

/-- A step that leaves the registries, the binding and what the store records of the
sessions as they are. -/
theorem same_of_nodes {op : Op} {reply : op.Reply} (step : World.exec op world reply after)
    (nodes : after.nodes = world.nodes)
    (binding : after.redis.bindings.lookup scene.room = world.redis.bindings.lookup scene.room)
    (recorded : ∀ sessionId, Recorded scene after sessionId → Recorded scene world sessionId) :
    Same scene world after where
  peers node nickname := by rw [nodes]
  links sessionId := by rw [Linked, Linked, owner, owner, nodes]
  known sessionId member := by rwa [owner, nodes]
  inRoom sessionId inside := by rwa [InRoom, owner, nodes] at inside
  sent sender sent := by
    obtain ⟨reason, queued⟩ := sent
    exact ⟨reason, World.exec_queue step queued⟩
  binding := binding
  recorded := recorded

/-- A step that writes no registry, no binding and no session. -/
theorem same_of_frame {op : Op} {reply : op.Reply} (step : World.exec op world reply after)
    (nodes : ¬ World.WritesNodes op) (unbinding : ¬ op.IsRedis Command.WritesBindings)
    (apart : ¬ op.IsRedis Command.WritesSessions) : Same scene world after := by
  have keeps := World.exec_keepsRedis step
  refine same_of_nodes step (World.exec_nodes step nodes) (by rw [keeps.bindings unbinding]) ?_
  intro sessionId recorded
  rwa [Recorded, keeps.sessions apart] at recorded

/-- Deleting the binding of another room. -/
theorem same_del {roomId : RoomId} {reply : (Op.redis (.del (.binding roomId))).Reply}
    (apart : roomId ≠ scene.room)
    (step : World.exec (.redis (.del (.binding roomId))) world reply after) :
    Same scene world after := by
  refine same_of_nodes step (World.exec_nodes step id) ?_ ?_
  · obtain ⟨_, redis, ⟨-, rfl⟩, -, rfl⟩ := step
    exact Finmap.lookup_erase_ne apart.symm
  · obtain ⟨_, redis, ⟨-, rfl⟩, -, rfl⟩ := step
    exact fun _ recorded => recorded

/-- Clearing the room of a session in the store. -/
theorem same_hset {sessionId : SessionId}
    {reply : (Op.redis (.hset (.session sessionId) "room_id" "")).Reply}
    (step : World.exec (.redis (.hset (.session sessionId) "room_id" "")) world reply after) :
    Same scene world after ∧ ¬ Recorded scene after sessionId := by
  have cleared : ∀ query, Recorded scene after query →
      query ≠ sessionId ∧ Recorded scene world query := by
    obtain ⟨_, redis, rfl, -, rfl⟩ := step
    intro query recorded
    obtain ⟨session, found, names⟩ := recorded
    simp only [Redis.hset, lookup_insert_if] at found
    by_cases same : query = sessionId
    · rw [if_pos same] at found
      cases found
      rw [Hash.get_set, if_pos rfl] at names
      exact absurd (Option.some.inj names).symm scene.named
    · rw [if_neg same] at found
      exact ⟨same, session, found, names⟩
  refine ⟨same_of_nodes step (World.exec_nodes step id) ?_ fun query recorded =>
    (cleared query recorded).2, fun recorded => (cleared sessionId recorded).1 rfl⟩
  obtain ⟨_, redis, rfl, -, rfl⟩ := step
  rfl

/-- A critical section of a peer registry that keeps the peers of the room. -/
theorem same_peers {node : NodeId} {command : PeerRegistry.Command}
    {reply : (Op.peers node command).Reply}
    (keeps : ∀ nickname (peers : PeerRegistry),
      PeerRegistry.exec command (world.nodes node).peers reply peers →
        peers.lookup (scene.room, nickname) =
          (world.nodes node).peers.lookup (scene.room, nickname))
    (step : World.exec (.peers node command) world reply after) : Same scene world after := by
  obtain ⟨peers, effect, rfl⟩ := step
  refine ⟨fun query nickname => ?_, fun _ => ?_, fun _ member => ?_, fun _ inside => ?_,
    fun _ sent => sent, rfl, fun _ recorded => recorded⟩
  · rw [World.nodes_setNode]
    split
    · rename_i same
      rw [same]
      exact keeps nickname peers effect
    · rfl
  · rw [Linked, Linked, owner, owner, World.sessions_setPeers]
  · rwa [owner, World.sessions_setPeers]
  · rwa [InRoom, owner, World.sessions_setPeers] at inside

/-- Emptying another room, or the rooms of another node. -/
theorem same_clearRoom {node : NodeId} {roomId : RoomId}
    {reply : (Op.sessions node (.clearRoom roomId)).Reply}
    (apart : node = scene.state.node → roomId ≠ scene.room)
    (step : World.exec (.sessions node (.clearRoom roomId)) world reply after) :
    Same scene world after := by
  obtain ⟨sessions, ⟨sessionIds, all, cleared⟩, rfl⟩ := step
  have changed : sessions = ((world.nodes node).sessions.clearRoom roomId sessionIds).2 :=
    congrArg Prod.snd cleared
  refine ⟨fun query nickname => by rw [World.peers_setSessions], fun sessionId => ?_,
    fun sessionId member => ?_, fun sessionId inside => ?_, fun _ sent => sent, rfl,
    fun _ recorded => recorded⟩
  · rw [Linked, Linked, owner, owner, World.nodes_setNode]
    split
    · rename_i same
      subst same
      have other : scene.room ≠ roomId := (apart rfl).symm
      simp only [changed, SessionStore.clearRoom, lookup_erase_if, other, ↓reduceIte]
    · rfl
  · rw [owner, World.nodes_setNode]
    split
    · rename_i same
      rw [owner, same] at member
      rw [Finmap.mem_iff] at member ⊢
      obtain ⟨session, found⟩ := member
      simp only [changed, SessionStore.lookup_clearRoom, found, Option.map_some]
      split
      · exact ⟨_, rfl⟩
      · exact ⟨_, rfl⟩
    · exact member
  · rw [InRoom, owner, World.nodes_setNode] at inside
    split at inside
    · rename_i same
      obtain ⟨session, found, named⟩ := inside
      simp only [changed, SessionStore.lookup_clearRoom] at found
      rw [InRoom, owner, same]
      split at found
      · obtain ⟨before, -, changed⟩ := Option.map_eq_some_iff.mp found
        rw [← changed] at named
        cases named
      · exact ⟨session, found, named⟩
    · exact inside

/-! ## Programs that do not concern the room -/

/-- The step does not concern the room and leaves the run where it is. -/
structure Still (scene : Scene) (phase : Phase) (op : Op) : Prop where
  same : ∀ world reply after, World.exec op world reply after → Same scene world after
  fixed : ∀ reply, phase.advance scene.room op reply = phase

/-- A step that leaves the room and the task's knowledge alone may be taken at any time. -/
theorem inert_of_still (op : Op) (still : Still scene phase op) :
    (outline scene).Inert phase op where
  asserts _ := trivial
  keeps := by
    intro state others reply after progress effect
    obtain ⟨world, handled⟩ := state
    obtain ⟨after, _⟩ := after
    obtain ⟨effect, -, rfl⟩ := effect
    have same := still.same world reply after effect
    exact Progress.move progress same
      (same.less.fits (progress.fits phase (Multiset.mem_cons_self _ _)))
      (fun _ _ owed => owed) id
  still := still.fixed

/-- A step that touches no node, no binding and no session leaves the room alone. -/
theorem still_of_frame {op : Op} (nodes : ¬ World.WritesNodes op)
    (unbinding : ¬ op.IsRedis Command.WritesBindings)
    (apart : ¬ op.IsRedis Command.WritesSessions)
    (fixed : ∀ reply, phase.advance scene.room op reply = phase) : Still scene phase op :=
  ⟨fun _ _ _ step => same_of_frame step nodes unbinding apart, fixed⟩

/-! ## The owner closes the room -/

variable {participants : List Nickname} {targets : List (Nickname × ConnectionId)}
  {nickname : Nickname} {sender : ConnectionId} {sessionIds : List SessionId}

/-- Reading a registry changes nothing. -/
theorem same_read {node : NodeId} {command : PeerRegistry.Command}
    {reply : (Op.peers node command).Reply}
    (reads : ∀ peers, PeerRegistry.exec command (world.nodes node).peers reply peers →
      peers = (world.nodes node).peers)
    (step : World.exec (.peers node command) world reply after) : Same scene world after :=
  same_peers (fun nickname peers effect => by rw [reads peers effect]) step

/-- The task learns whom to send to: everybody it has not been sent to yet. -/
theorem Progress.target {reply : List (Nickname × ConnectionId)}
    (progress : Progress scene (world, handled) (.routed participants ::ₘ others))
    (step : World.exec (.peers scene.state.node (.targets scene.room none)) world reply after) :
    Progress scene (after, handled) (.closing participants reply ::ₘ others) := by
  have same : Same scene world after := by
    refine same_read ?_ step
    exact fun _ effect => effect.2
  have fits := progress.fits _ (Multiset.mem_cons_self _ _)
  obtain ⟨_, ⟨⟨_, receivers⟩, -⟩, -⟩ := step
  refine progress.move same ⟨fun name member => fits name (same.registered.mp member), ?_⟩
    (fun _ _ owed => owed.elim) fun _ => trivial
  intro name entry found
  rcases progress.reached name entry found with registered | sent
  · obtain ⟨current, here⟩ := Finmap.mem_iff.mp registered
    have equal := progress.fewer name current here
    rw [found] at equal
    cases equal
    exact .inr ((receivers name entry.sender).mpr ⟨by simp, entry, here, rfl⟩)
  · exact .inl (same.sent _ sent)

/-- The task sends to one peer. -/
theorem Progress.send {reason : String}
    (progress : Progress scene (world, handled)
      (.closing participants ((nickname, sender) :: targets) ::ₘ others))
    (step : World.exec (.trySend sender (.roomClosed scene.room reason)) world true after) :
    Progress scene (after, handled) (.closing participants targets ::ₘ others) := by
  have same : Same scene world after := same_of_frame step id id id
  have fits := progress.fits _ (Multiset.mem_cons_self _ _)
  have sent : Sent scene after sender := by
    obtain ⟨accepted, changed⟩ := step
    rw [if_pos (of_decide_eq_true accepted.symm)] at changed
    refine ⟨reason, ?_⟩
    rw [changed, World.enqueue, World.setConnection]
    simp only [Function.update_self]
    exact List.mem_append_right _ List.mem_cons_self
  refine progress.move same ⟨fun name member => fits.1 name (same.registered.mp member), ?_⟩
    (fun _ _ owed => owed.elim) fun _ => trivial
  intro name entry found
  rcases fits.2 name entry found with before | target
  · exact .inl (same.sent _ before)
  · rcases List.mem_cons.mp target with own | later
    · rw [(Prod.mk.inj own).2]
      exact .inl sent
    · exact .inr later

/-- Unregistering a participant of the room. -/
theorem less_unregister {node : NodeId}
    (step : World.exec (.peers node (.unregister scene.room nickname)) world () after) :
    Less scene world after := by
  obtain ⟨peers, rfl, rfl⟩ := step
  refine ⟨fun query name entry found => ?_, fun sessionId linked => ?_,
    fun sessionId inside => ?_, fun _ sent => sent, fun _ found => found,
      fun _ recorded => recorded⟩
  · rw [World.nodes_setNode] at found
    split at found
    · rename_i same
      rw [lookup_erase_if] at found
      split at found
      · cases found
      · rw [same]
        exact found
    · exact found
  · rwa [Linked, owner, World.sessions_setPeers] at linked
  · rwa [InRoom, owner, World.sessions_setPeers] at inside

/-- The task unregisters a participant, after it has sent to all. -/
theorem Progress.unregister
    (progress : Progress scene (world, handled) (.closing participants [] ::ₘ others))
    (step : World.exec (.peers scene.state.node (.unregister scene.room nickname)) world () after) :
    Progress scene (after, handled)
      (.closing (participants.filter (· ≠ nickname)) [] ::ₘ others) := by
  have fits := progress.fits _ (Multiset.mem_cons_self _ _)
  have less := less_unregister step
  have sent : AllSent scene after := fun name entry found =>
    less.sent _ ((fits.2 name entry found).resolve_right List.not_mem_nil)
  obtain ⟨peers, rfl, rfl⟩ := step
  refine progress.step less (fun name entry found _ => .inr (sent name entry found)) ?_ ?_ ?_ ?_
    fun _ => .inr (.inl (.inl trivial))
  · intro sessionId _ linked
    rwa [Linked, owner, World.sessions_setPeers]
  · intro sessionId _ member
    rwa [owner, World.sessions_setPeers]
  · intro sessionId _ either
    refine either.imp (fun linked => ?_) fun owed => owed.elim
    rwa [Linked, owner, World.sessions_setPeers]
  · refine ⟨fun name registered => ?_, fun name entry found => .inl (sent name entry found)⟩
    refine List.mem_filter.mpr ⟨fits.1 name (less.registered registered), ?_⟩
    refine decide_eq_true fun same => ?_
    subst same
    rw [Registered, owner, World.nodes_setNode, if_pos rfl, Finmap.mem_iff] at registered
    obtain ⟨entry, found⟩ := registered
    rw [Finmap.lookup_erase] at found
    cases found

/-- The task takes the sessions out of the room, when nobody is registered any more. -/
theorem Progress.clear {affected : List SessionId}
    (progress : Progress scene (world, handled) (.closing [] [] ::ₘ others))
    (step : World.exec (.sessions scene.state.node (.clearRoom scene.room)) world affected after) :
    Progress scene (after, handled) (.cleared affected ::ₘ others) := by
  have fits := progress.fits _ (Multiset.mem_cons_self _ _)
  obtain ⟨sessions, ⟨sessionIds, all, outcome⟩, rfl⟩ := step
  obtain ⟨rfl, rfl⟩ := Prod.mk.inj outcome
  let cleared := ((owner scene world).sessions.clearRoom scene.room sessionIds).2
  let after := world.setNode scene.state.node
    { world.nodes scene.state.node with sessions := cleared }
  have now : (owner scene after).sessions = cleared := by
    rw [owner, World.nodes_setNode, if_pos rfl]
  have peers (node : NodeId) : (after.nodes node).peers = (world.nodes node).peers :=
    World.peers_setSessions world scene.state.node node cleared
  have unlinked (sessionId : SessionId) : ¬ Linked scene after sessionId := by
    rw [Linked, now]
    simp [cleared, SessionStore.clearRoom]
  have listed {sessionId : SessionId} (linked : Linked scene world sessionId) :
      sessionId ∈ sessionIds := all.mem_iff.mpr linked
  have left (sessionId : SessionId) : ¬ InRoom scene after sessionId := by
    intro inside
    rw [InRoom, now] at inside
    obtain ⟨session, found, named⟩ := inside
    simp only [cleared, SessionStore.lookup_clearRoom] at found
    split at found
    · obtain ⟨before, -, changed⟩ := Option.map_eq_some_iff.mp found
      rw [← changed] at named
      cases named
    · rename_i out
      exact out (listed (progress.linked sessionId ⟨session, found, named⟩))
  have same {name : Nickname} : Registered scene after name ↔ Registered scene world name := by
    rw [Registered, Registered, owner, owner, peers]
  have closed : Closed scene after := ⟨fun name registered =>
    List.not_mem_nil (fits.1 name (same.mp registered)),
    fun name entry found => (fits.2 name entry found).resolve_right List.not_mem_nil, left,
    unlinked⟩
  have less : Less scene world after := ⟨fun node name entry found => peers node ▸ found,
    fun sessionId linked => (unlinked sessionId linked).elim,
    fun sessionId inside => (left sessionId inside).elim, fun _ sent => sent,
    fun _ found => found, fun _ recorded => recorded⟩
  refine progress.step less (fun name entry _ registered => .inl (same.mpr registered))
    (fun sessionId inside => (left sessionId inside).elim)
    (fun sessionId linked => (unlinked sessionId linked).elim) ?_ closed
    fun _ => .inr (.inr closed)
  intro sessionId _ either
  have linked := either.resolve_right id
  exact .inr (List.mem_filter.mpr
    ⟨listed linked, decide_eq_true (progress.known sessionId linked)⟩)

/-- A run deletes the binding of the room. -/
theorem Progress.delete {reply : (Op.redis (.del (.binding scene.room))).Reply}
    (progress : Progress scene (world, handled) (phase ::ₘ others))
    (step : World.exec (.redis (.del (.binding scene.room))) world reply after)
    (fits : Less scene world after → ¬ Open scene after → next.Fits scene after)
    (owes : ∀ sessionId, phase.Owes sessionId → next.Owes sessionId)
    (covered : Less scene world after → Open scene world ∨ phase.Committed →
      (next.Committed ∨ ∃ other ∈ others, other.Committed) ∨ Closed scene after) :
    Progress scene (after, handled) (next ::ₘ others) := by
  obtain ⟨_, redis, ⟨-, rfl⟩, -, rfl⟩ := step
  have gone : (world.redis.delHash (.binding scene.room)).bindings.lookup scene.room = none :=
    Finmap.lookup_erase scene.room world.redis.bindings
  have less : Less scene world
      { world with redis := world.redis.delHash (.binding scene.room) } :=
    ⟨fun _ _ _ found => found, fun _ linked => linked, fun _ inside => inside,
      fun _ sent => sent, fun _ found => absurd (gone.symm.trans found) nofun,
      fun _ recorded => recorded⟩
  have unbound : ¬ Open scene { world with redis := world.redis.delHash (.binding scene.room) } :=
    fun present => absurd ((congrArg Option.isSome gone).symm.trans present) nofun
  exact progress.step less (fun _ _ _ registered => .inl registered) (fun _ _ linked => linked)
    (fun _ _ member => member) (fun sessionId _ either => either.imp_right (owes sessionId))
    (fits less unbound) fun either => .inr (covered less either)

/-! ## The task of the owner -/

/-- The binding read is the one the room had from the start. -/
theorem Progress.read {values : Map String String}
    (progress : Progress scene (world, handled) phases)
    (read : values = ((world.redis.bindings.lookup scene.room).map Hash.fields).getD ∅) :
    (values = ∅ ∧ ¬ Open scene world) ∨ (values ≠ ∅ ∧ values = scene.binding.fields) := by
  cases found : world.redis.bindings.lookup scene.room with
  | none =>
      rw [found] at read
      exact .inl ⟨read, fun present => by simp [Open, found] at present⟩
  | some hash =>
      rw [found] at read
      obtain rfl := progress.binding hash found
      exact .inr ⟨read ▸ scene.binding.nonempty, read⟩

/-- The participants are told of the closure, and none of them refuses. -/
theorem sendToEach_safe (reason : String) :
    (outline scene).Safe (fun last stale => last = .closing participants [] ∧ stale = [])
      (.closing participants targets)
        (State.sendToEach (.roomClosed scene.room reason) targets) := by
  induction targets with
  | nil => exact ⟨rfl, rfl⟩
  | cons target targets ih =>
      refine Threads.safe_step fun world handled others progress _ => ⟨trivial, ?_⟩
      intro sent after step accepted
      obtain rfl : sent = true := accepted
      refine ⟨Progress.send progress step, Outline.Safe.bind (ih.mono ?_)⟩
      intro phase stale ended
      exact ended

/-- The participants left to unregister are among those the loop has before it. -/
def Unregistering (rest : List Nickname) (phase : Phase) : Prop :=
  ∃ left, phase = .closing left [] ∧ ∀ nickname ∈ left, nickname ∈ rest

/-- The participants are taken out of the registry. -/
theorem unregister_safe :
    (outline scene).Safe (fun last _ => last = .closing [] []) (.closing participants [])
      (participants.forM (scene.state.unregister scene.room)) := by
  have loop : (outline scene).Safe (fun last _ => Unregistering [] last)
      (.closing participants []) (participants.forM (scene.state.unregister scene.room)) := by
    refine Outline.Safe.forM_rest ?_ ⟨participants, rfl, fun _ member => member⟩
    intro nickname rest phase _ between
    obtain ⟨left, rfl, later⟩ := between
    intro state others progress _
    refine ⟨trivial, fun _ after effect => ?_⟩
    obtain ⟨world, handled⟩ := state
    obtain ⟨after, _⟩ := after
    obtain ⟨step, -, rfl⟩ := effect
    refine ⟨Progress.unregister progress step, _, rfl, fun name kept => ?_⟩
    obtain ⟨member, other⟩ := List.mem_filter.mp kept
    exact (List.mem_cons.mp (later name member)).resolve_left (of_decide_eq_true other)
  refine loop.mono ?_
  intro phase _ ended
  obtain ⟨left, rfl, none⟩ := ended
  rw [List.eq_nil_iff_forall_not_mem.mpr fun name member => List.not_mem_nil (none name member)]

/-- The sessions left to clear in the store are among those the loop has before it. -/
def Clearing (rest : List SessionId) (phase : Phase) : Prop :=
  ∃ left, phase = .cleared left ∧ ∀ sessionId ∈ left, sessionId ∈ rest

/-- The task clears the sessions it took out of the room in the store. -/
theorem clearSessions_safe (affected : List SessionId) :
    (outline scene).Safe (fun last _ => last = .cleared []) (.cleared affected)
      (affected.forM State.clearRedisRoom) := by
  have loop : (outline scene).Safe (fun last _ => Clearing [] last) (.cleared affected)
      (affected.forM State.clearRedisRoom) := by
    refine Outline.Safe.forM_rest ?_ ⟨affected, rfl, fun _ member => member⟩
    intro sessionId rest phase _ between
    obtain ⟨left, rfl, later⟩ := between
    refine Outline.Safe.bind (Threads.safe_redis_last ?_)
    intro world handled others progress _
    refine ⟨trivial, fun _ redis effect _ => ?_⟩
    have step : World.exec (.redis (.hset (.session sessionId) "room_id" "")) world (.ok ())
        { world with redis } := ⟨(), redis, effect, rfl, rfl⟩
    obtain ⟨same, clear⟩ := same_hset step
    have fits := same.less.fits (progress.fits _ (Multiset.mem_cons_self _ _))
    refine ⟨Progress.move progress same fits ?_ fun _ => trivial, _, rfl, fun query kept => ?_⟩
    · intro query recorded owed
      exact List.mem_filter.mpr ⟨owed, decide_eq_true fun own => clear (own ▸ recorded)⟩
    · obtain ⟨member, other⟩ := List.mem_filter.mp kept
      exact (List.mem_cons.mp (later query member)).resolve_left (of_decide_eq_true other)
  refine loop.mono ?_
  intro phase _ ended
  obtain ⟨left, rfl, none⟩ := ended
  rw [List.eq_nil_iff_forall_not_mem.mpr fun id member => List.not_mem_nil (none id member)]

/-- The binding is gone once it has been closed. -/
theorem closeRoomBinding_safe :
    (outline scene).Safe (fun last _ => last = .cleared sessionIds) (.cleared sessionIds)
      (closeRoomBinding scene.room).run := by
  have skip {op : Op} (nodes : ¬ World.WritesNodes op)
      (unbinding : ¬ op.IsRedis Command.WritesBindings)
      (apart : ¬ op.IsRedis Command.WritesSessions)
      (fixed : ∀ reply, (Phase.cleared sessionIds).advance scene.room op reply =
        .cleared sessionIds) : Still scene (.cleared sessionIds) op :=
    still_of_frame nodes unbinding apart fixed
  refine Threads.safe_redis fun world _ others progress _ => ⟨trivial, ?_⟩
  intro instanceId redis effect _
  obtain ⟨-, rfl⟩ := effect
  refine ⟨progress, Threads.safe_redis fun world _ others progress _ => ⟨trivial, ?_⟩⟩
  intro deleted redis effect _
  have fits := progress.fits _ (Multiset.mem_cons_self _ _)
  refine ⟨Progress.delete progress ⟨deleted, redis, effect, rfl, rfl⟩ (fun less _ => less.fits fits)
    (fun _ owed => owed) (fun _ _ => .inl (.inl trivial)), Outline.Safe.of_inert inert_of_still ?_⟩
  split
  · trivial
  · refine Program.Only.except_bind (decrementSfuRoomLoad_only ?_ ?_ ?_ ?_ ?_) fun _ => trivial
    · exact skip id id id fun _ => rfl
    · exact fun _ => skip id id id fun _ => rfl
    · exact skip id id id fun _ => rfl
    · exact skip id id id fun _ => rfl
    · exact fun _ => skip id id id fun _ => rfl

/-- Whoever has read the route closes the whole room. -/
theorem closeRoom_safe (reason : String) :
    (outline scene).Safe (fun last _ => last = .cleared []) (.routed participants)
      (scene.state.closeRoom scene.room participants reason) := by
  have broadcast : (outline scene).Safe
      (fun last stale => last = .closing participants [] ∧ stale = []) (.routed participants)
      (scene.state.broadcastToRoom scene.room none (.roomClosed scene.room reason)) := by
    refine Threads.safe_step fun world handled others progress _ => ⟨trivial, ?_⟩
    intro targets after step _
    exact ⟨Progress.target progress step, sendToEach_safe reason⟩
  refine Outline.Safe.bind (broadcast.mono ?_)
  intro _ stale ended
  obtain ⟨rfl, rfl⟩ := ended
  refine Outline.Safe.bind (unregister_safe.mono ?_)
  intro _ _ same
  subst same
  change (outline scene).Safe _ _ (scene.state.clearSessionRoom scene.room >>= _)
  refine Threads.safe_step fun world handled others progress _ => ⟨trivial, ?_⟩
  intro affected after step _
  refine ⟨Progress.clear progress step, ?_⟩
  have skip {op : Op} (nodes : ¬ World.WritesNodes op)
      (unbinding : ¬ op.IsRedis Command.WritesBindings)
      (apart : ¬ op.IsRedis Command.WritesSessions)
      (fixed : ∀ reply, (Phase.cleared affected).advance scene.room op reply =
        .cleared affected) : Still scene (.cleared affected) op :=
    still_of_frame nodes unbinding apart fixed
  refine Outline.Safe.bind ((Threads.safe_isRedisAvailable
    (inert_of_still _ (skip id id id fun _ => rfl))).mono ?_)
  intro _ available ended
  obtain ⟨rfl, rfl⟩ := ended
  refine Outline.Safe.bind (closeRoomBinding_safe.mono ?_)
  intro _ _ same
  subst same
  refine Outline.Safe.bind ((Outline.Safe.of_inert inert_of_still (redisCommand_drop_only
    (skip id id id fun _ => rfl))).mono ?_)
  intro _ _ same
  subst same
  exact clearSessions_safe affected

/-- A task passes over a room other than the one looked at. -/
theorem closeRoomIfOnSfu_still {state : State} {phase : Phase} {room : RoomId × List Nickname}
    (apart : room.1 ≠ scene.room) (between : phase = .elsewhere ∨
      (∃ participants, phase = .listed participants) ∨ phase = .cleared []) (sfuAddr : Address)
    (reason : String) :
    (state.closeRoomIfOnSfu sfuAddr reason room).Only (Still scene phase) := by
  have fixed {op : Op} (elsewhere : ∀ reply, Phase.elsewhere.advance scene.room op reply =
      .elsewhere) (listed : ∀ participants reply,
        (Phase.listed participants).advance scene.room op reply = .listed participants)
      (cleared : ∀ reply, (Phase.cleared []).advance scene.room op reply = .cleared []) :
      ∀ reply, phase.advance scene.room op reply = phase := by
    rcases between with rfl | ⟨participants, rfl⟩ | rfl
    · exact elsewhere
    · exact listed participants
    · exact cleared
  have skip {op : Op} (nodes : ¬ World.WritesNodes op)
      (unbinding : ¬ op.IsRedis Command.WritesBindings)
      (apart : ¬ op.IsRedis Command.WritesSessions)
      (fixed : ∀ reply, phase.advance scene.room op reply = phase) : Still scene phase op :=
    still_of_frame nodes unbinding apart fixed
  refine Program.Only.bind
    (getRoomRoute_only (skip id id id (fixed (fun _ => rfl) ?_ fun _ => rfl)))
    fun route => ?_
  · intro participants reply
    cases reply with
    | ok values => simp [Phase.advance, apart]
    | error error => rfl
  cases route with
  | error error => trivial
  | ok route =>
      change (if route.sfuGrpcAddr = some sfuAddr then _ else _ : Call Unit).Only _
      split
      · refine State.closeRoom_only ?_ ?_ ?_ ?_ ?_ ?_ ?_ ?_
        · refine ⟨fun world reply after step => same_read ?_ step,
            fixed (fun _ => rfl) (fun _ _ => rfl) fun _ => rfl⟩
          exact fun _ effect => effect.2
        · exact fun _ => skip id id id (fixed (fun _ => rfl) (fun _ _ => rfl) fun _ => rfl)
        · refine fun nickname => ⟨fun world reply after step => same_peers ?_ step,
            fixed (fun _ => rfl) (fun _ _ => rfl) fun _ => rfl⟩
          intro name peers effect
          rw [show peers = _ from effect, lookup_erase_if, if_neg]
          exact fun same => apart (Prod.mk.inj same).1.symm
        · exact ⟨fun _ _ _ step => same_clearRoom (fun _ => apart) step,
            fixed (fun _ => rfl) (fun _ _ => rfl) fun _ => rfl⟩
        · exact skip id id id (fixed (fun _ => rfl) (fun _ _ => rfl) fun _ => rfl)
        · refine closeRoomBinding_only ?_ ?_ fun instanceId =>
            decrementSfuRoomLoad_only ?_ ?_ ?_ ?_ ?_
          · exact skip id id id (fixed (fun _ => rfl) (fun _ _ => rfl) fun _ => rfl)
          · exact ⟨fun _ _ _ step => same_del apart step,
              fixed (fun _ => rfl) (fun _ _ => rfl) fun _ => rfl⟩
          · exact skip id id id (fixed (fun _ => rfl) (fun _ _ => rfl) fun _ => rfl)
          · exact fun _ => skip id id id (fixed (fun _ => rfl) (fun _ _ => rfl) fun _ => rfl)
          · exact skip id id id (fixed (fun _ => rfl) (fun _ _ => rfl) fun _ => rfl)
          · exact skip id id id (fixed (fun _ => rfl) (fun _ _ => rfl) fun _ => rfl)
          · exact fun _ => skip id id id (fixed (fun _ => rfl) (fun _ _ => rfl) fun _ => rfl)
        · exact skip id id id (fixed (fun _ => rfl) (fun _ _ => rfl) fun _ => rfl)
        · exact fun _ => ⟨fun _ _ _ step => (same_hset step).1,
            fixed (fun _ => rfl) (fun _ _ => rfl) fun _ => rfl⟩
      · trivial

/-- Where the owner's task is between two rooms: the room is among the rest only as
the snapshot listed it, and only if it is not closed yet. -/
structure Between (scene : Scene) (participants : List Nickname)
    (rest : List (RoomId × List Nickname)) (phase : Phase) : Prop where
  nodup : (rest.map Prod.fst).Nodup
  ahead : ∀ names, (scene.room, names) ∈ rest → names = participants ∧ phase = .listed participants
  phase : phase = .listed participants ∨ phase = .cleared []

/-- The rooms before this one have been dealt with. -/
theorem Between.tail {room : RoomId × List Nickname} {rest : List (RoomId × List Nickname)}
    (between : Between scene participants (room :: rest) phase) :
    Between scene participants rest phase where
  nodup := (List.nodup_cons.mp between.nodup).2
  ahead names member := between.ahead names (List.mem_cons_of_mem _ member)
  phase := between.phase

/-- What the task knows once it has read the route of the room. -/
def RouteRead (scene : Scene) (participants : List Nickname) (last : Phase) :
    Except RedisRoomError RoomRoute → Prop
  | .error _ => last = .listed participants
  | .ok route => last = .routed participants ∧ route.sfuGrpcAddr = some scene.sfuAddr

/-- The task closes the room if the binding is there. -/
theorem closeRoomIfOnSfu_safe (reason : String) :
    (outline scene).Safe (fun last _ => last = .listed participants ∨ last = .cleared [])
      (.listed participants)
      (scene.state.closeRoomIfOnSfu scene.sfuAddr reason (scene.room, participants)) := by
  have read : (outline scene).Safe
      (RouteRead scene participants) (.listed participants) (getRoomRoute scene.room).run := by
    refine Threads.safe_redis fun world _ others progress _ => ⟨trivial, ?_⟩
    intro values redis effect _
    obtain ⟨found, rfl⟩ := effect
    have fits := progress.fits _ (Multiset.mem_cons_self _ _)
    have move {next : Phase} (fits : next.Fits scene world) :
        Progress scene (world, _) (next ::ₘ others) :=
      Progress.move progress (.refl scene world) fits (fun _ _ owed => owed.elim) fun own =>
        own.elim
    obtain ⟨rfl, closed⟩ | ⟨filled, rfl⟩ := Progress.read progress found
    · have stays : (threads scene).advance (Phase.listed participants)
          (.redis (.hgetall (.binding scene.room))) (.ok ∅) = Phase.listed participants := by
        simp [threads, Phase.advance]
      rw [stays]
      exact ⟨move fits, rfl⟩
    · have moves : (threads scene).advance (Phase.listed participants)
          (.redis (.hgetall (.binding scene.room))) (.ok scene.binding.fields) =
            Phase.routed participants := by
        simp [threads, Phase.advance, filled]
      obtain ⟨route, parsed, routed⟩ := scene.routed
      rw [moves]
      refine ⟨move fits, ?_⟩
      change RouteRead scene participants _ (RoomRoute.ofFields scene.binding.fields)
      rw [parsed]
      exact ⟨rfl, routed⟩
  refine Outline.Safe.bind (read.mono ?_)
  intro phase route ended
  cases route with
  | error error => exact .inl ended
  | ok route =>
      obtain ⟨rfl, routed⟩ := ended
      change (outline scene).Safe _ _ (if route.sfuGrpcAddr = some scene.sfuAddr then _ else _)
      rw [if_pos routed]
      exact (closeRoom_safe reason).mono fun _ _ ended => .inr ended

/-- The owner closes the room when it comes to it. -/
theorem ownerRooms_safe (reason : String) {rooms : List (RoomId × List Nickname)}
    (between : Between scene participants rooms phase) :
    (outline scene).Safe (fun last _ => Between scene participants [] last) phase
      (rooms.forM (scene.state.closeRoomIfOnSfu scene.sfuAddr reason)) := by
  refine Outline.Safe.forM_rest ?_ between
  intro room rest phase _ between
  by_cases own : room.1 = scene.room
  · obtain ⟨roomId, names⟩ := room
    obtain rfl : roomId = scene.room := own
    obtain ⟨rfl, rfl⟩ := between.ahead names List.mem_cons_self
    refine (closeRoomIfOnSfu_safe reason).mono fun last _ ended => ⟨between.tail.nodup, ?_, ended⟩
    intro other member
    exact absurd (List.mem_map_of_mem member) (List.nodup_cons.mp between.nodup).1
  · have passes : phase = .elsewhere ∨ (∃ participants, phase = .listed participants) ∨
        phase = .cleared [] :=
      .inr (between.phase.imp_left fun same => ⟨participants, same⟩)
    refine (Outline.Safe.of_inert inert_of_still
      (closeRoomIfOnSfu_still own passes scene.sfuAddr reason)).mono ?_
    intro last _ same
    rw [same]
    exact between.tail

/-- Where a task of the node may end. -/
def Ended (phase : Phase) : Prop :=
  phase = .elsewhere ∨ (∃ participants, phase = .listed participants) ∨ phase = .cleared []

/-- The snapshot lists the room with exactly the registered participants. -/
theorem listedIn_of_snapshot (room : RoomId) {rooms : List (RoomId × List Nickname)}
    {peers : PeerRegistry} (snapshot : peers.Snapshot rooms) :
    (∀ names, (room, names) ∈ rooms → names = Phase.listedIn room rooms) ∧
      ∀ nickname, (room, nickname) ∈ peers → nickname ∈ Phase.listedIn room rooms := by
  obtain ⟨nodup, rooms_iff, names_iff⟩ := snapshot
  have listed (names : List Nickname) (member : (room, names) ∈ rooms) :
      names = Phase.listedIn room rooms := by
    unfold Phase.listedIn
    cases found : rooms.find? (·.1 = room) with
    | none =>
        have absent := List.find?_eq_none.mp found _ member
        simp at absent
    | some other =>
        have same : other.1 = room := by simpa using List.find?_some found
        have equal := List.inj_on_of_nodup_map nodup member (List.mem_of_find?_eq_some found)
          same.symm
        rw [← equal]
        rfl
  refine ⟨listed, fun nickname member => ?_⟩
  have some_ : room ∈ rooms.map Prod.fst :=
    (rooms_iff room).mpr ⟨nickname, (PeerRegistry.mem_nicknames peers).mpr member⟩
  obtain ⟨⟨_, names⟩, here, rfl⟩ := List.mem_map.mp some_
  rw [← listed names here]
  exact (names_iff _ here).mem_iff.mpr ((PeerRegistry.mem_nicknames peers).mpr member)

/-- The task depends on the node only through the registries it uses. -/
theorem closeRooms_eq {first second : State} (same : first.node = second.node) (sfuAddr : Address)
    (reason : String) : first.closeRoomsDueToSfuAddr sfuAddr reason =
      second.closeRoomsDueToSfuAddr sfuAddr reason := by
  have closes : first.closeRoom = second.closeRoom := by
    unfold State.closeRoom State.broadcastToRoom State.unregister State.clearSessionRoom
    rw [same]
  have closesIf : first.closeRoomIfOnSfu = second.closeRoomIfOnSfu := by
    unfold State.closeRoomIfOnSfu
    rw [closes]
  rw [State.closeRoomsDueToSfuAddr, State.closeRoomsDueToSfuAddr, same, closesIf]

/-- The task that is spawned at the owner closes the room. -/
theorem ownerTask_safe (reason : String) :
    (outline scene).Safe (fun last _ => Ended last) .waiting
      (scene.state.closeRoomsDueToSfuAddr scene.sfuAddr reason) := by
  refine Threads.safe_step fun world handled others progress _ => ⟨trivial, ?_⟩
  intro rooms after step _
  have same : Same scene world after := by
    refine same_read ?_ step
    exact fun _ effect => effect.2
  obtain ⟨_, ⟨snapshot, -⟩, -⟩ := step
  obtain ⟨listed, complete⟩ := listedIn_of_snapshot scene.room snapshot
  refine ⟨Progress.move progress same ?_ (fun _ _ owed => owed.elim) fun own => own.elim, ?_⟩
  · exact fun nickname registered => complete nickname (same.registered.mp registered)
  have between : Between scene (Phase.listedIn scene.room rooms) rooms
      (.listed (Phase.listedIn scene.room rooms)) :=
    ⟨snapshot.1, fun names member => ⟨listed names member, rfl⟩, .inl rfl⟩
  refine (ownerRooms_safe reason between).mono ?_
  intro last _ between
  exact .inr (between.phase.imp_left fun same => ⟨_, same⟩)

/-- A task at another node does nothing to the room. -/
theorem otherTask_safe {state : State} (apart : state.node ≠ scene.state.node) (reason : String) :
    (outline scene).Safe (fun last _ => Ended last) .elsewhere
      (state.closeRoomsDueToSfuAddr scene.sfuAddr reason) := by
  refine Threads.safe_step fun world handled others progress _ => ⟨trivial, ?_⟩
  intro rooms after step _
  have same : Same scene world after := by
    refine same_read ?_ step
    exact fun _ effect => effect.2
  obtain ⟨_, ⟨⟨_, rooms_iff, _⟩, -⟩, -⟩ := step
  have absent : scene.room ∉ rooms.map Prod.fst := by
    intro member
    obtain ⟨nickname, registered⟩ := (rooms_iff scene.room).mp member
    exact progress.alone state.node nickname apart ((PeerRegistry.mem_nicknames _).mp registered)
  refine ⟨Progress.move progress same trivial (fun _ _ owed => owed.elim) fun own => own.elim, ?_⟩
  refine Outline.Safe.mono (fun _ _ same => .inl same)
    (Outline.Safe.of_inert inert_of_still (Program.Only.forM fun room member => ?_))
  exact closeRoomIfOnSfu_still (fun own => absent (own ▸ List.mem_map_of_mem member)) (.inl rfl)
    scene.sfuAddr reason

/-! ## The supervisor -/

/-- A step of the supervisor beside its scan, its reads of bindings and its deletions. -/
theorem supervisor_still {op : Op} (before : phase = .searching ∨ phase = .gone)
    (nodes : ¬ World.WritesNodes op) (unbinding : ¬ op.IsRedis Command.WritesBindings)
    (apart : ¬ op.IsRedis Command.WritesSessions)
    (fixed : ∀ reply, Phase.searching.advance scene.room op reply = .searching)
    (fixed' : ∀ reply, Phase.gone.advance scene.room op reply = .gone) : Still scene phase op := by
  refine still_of_frame nodes unbinding apart ?_
  rcases before with rfl | rfl
  · exact fixed
  · exact fixed'

/-- The scan returns the room, or the room has no binding. -/
theorem scanFrom_safe {bound : ℕ} {seen : Bool} {cursor : Cursor} {results : List RoomId}
    (found : seen = true → scene.room ∈ results) :
    (outline scene).Safe (fun last ids => ∃ roomIds, ids = .ok roomIds ∧
      ((last = .searching ∧ scene.room ∈ roomIds) ∨ last = .gone)) (.scanning seen cursor)
      (scanFrom .bindings bound cursor results).run := by
  induction bound generalizing seen cursor results with
  | zero =>
      intro state others _ _
      exact ⟨trivial, fun reply => reply.elim⟩
  | succ bound ih =>
      refine Threads.safe_redis fun world _ others progress _ => ⟨trivial, ?_⟩
      intro page redis effect _
      obtain ⟨⟨_, owes⟩, rfl⟩ := effect
      have fits := progress.fits _ (Multiset.mem_cons_self _ _)
      obtain ⟨keys, rest⟩ := page
      have moves {next : Phase} (fits : next.Fits scene world) :
          Progress scene (world, _) (next ::ₘ others) :=
        Progress.move progress (.refl scene world) fits (fun _ _ owed => owed.elim)
          fun own => own.elim
      have seen' : (seen || decide (scene.room ∈ keys)) = true → scene.room ∈ results ++ keys := by
        intro either
        rcases Bool.or_eq_true_iff.mp either with before | now
        · exact List.mem_append_left _ (found before)
        · exact List.mem_append_right _ (of_decide_eq_true now)
      -- A bound room is on this page or owed to the iteration, unless it was seen.
      have owed (present : Open scene world)
        (unseen : ¬ (seen || decide (scene.room ∈ keys)) = true) :
          scene.room ∈ (cursor.map (· ∩ world.redis.keys .bindings)).getD
            (world.redis.keys .bindings) \ keys.toFinset := by
        simp only [Bool.or_eq_true, decide_eq_true_eq, not_or] at unseen
        have bound : scene.room ∈ world.redis.keys .bindings :=
          Finmap.mem_keys.mpr (Finmap.mem_iff.mpr (Option.isSome_iff_exists.mp present))
        refine Finset.mem_sdiff.mpr ⟨?_, fun member => unseen.2 (List.mem_toFinset.mp member)⟩
        cases cursor with
        | none => exact bound
        | some owed =>
            exact Finset.mem_inter.mpr ⟨(fits present).resolve_left unseen.1 owed rfl, bound⟩
      cases rest with
      | some rest =>
          refine ⟨moves fun present => ?_, ih seen'⟩
          by_cases saw : (seen || decide (scene.room ∈ keys)) = true
          · exact .inl saw
          · refine .inr fun remaining same => ?_
            rw [← Option.some.inj same, show rest = _ from owes]
            exact owed present saw
      | none =>
          have advanced : (threads scene).advance (Phase.scanning seen cursor)
              (.redis (.scan .bindings cursor)) (.ok (keys, none)) =
              if (seen || decide (scene.room ∈ keys)) = true then Phase.searching else .gone := rfl
          rw [advanced]
          split
          · rename_i saw
            exact ⟨moves trivial, _, rfl, .inl ⟨rfl, seen' saw⟩⟩
          · rename_i unseen
            refine ⟨moves fun present => ?_, _, rfl, .inr rfl⟩
            have member := owed present unseen
            rw [show _ = (∅ : Finset String) from owes] at member
            exact absurd member (Finset.notMem_empty _)

/-- Where the supervisor is between two rooms. -/
def Ahead (scene : Scene) (rest : List RoomId) (phase : Phase) : Prop :=
  (phase = .searching ∧ scene.room ∈ rest) ∨ phase = .gone

/-- The call to the owner leaves the room alone. -/
theorem notifyOwner_still (before : phase = .searching ∨ phase = .gone) (config : Supervisor.Config)
    (ownerId : NodeId) (sfuGrpcAddr : Address) :
    (notifyOwner config ownerId sfuGrpcAddr).Only (Still scene phase) :=
  notifyOwner_only fun _ =>
    supervisor_still before id id id (fun _ => rfl) fun _ => rfl

/-- The release of a slot leaves the room alone. -/
theorem releaseSlot_still (before : phase = .searching ∨ phase = .gone)
    (sfuInstanceId : Option InstanceId) :
    (releaseSlot sfuInstanceId).Only (Still scene phase) := by
  cases sfuInstanceId with
  | none => trivial
  | some sfuInstanceId =>
      refine logged_only (Supervisor.decrementSfuRoomLoad_only ?_ ?_ ?_ ?_ ?_)
      · exact supervisor_still before id id id (fun _ => rfl) fun _ => rfl
      · exact fun _ => supervisor_still before id id id (fun _ => rfl) fun _ => rfl
      · exact supervisor_still before id id id (fun _ => rfl) fun _ => rfl
      · exact supervisor_still before id id id (fun _ => rfl) fun _ => rfl
      · exact fun _ _ => supervisor_still before id id id (fun _ => rfl) fun _ => rfl

/-- Another room is none of the room's business. -/
theorem closeDeadSfuRoom_still (before : phase = .searching ∨ phase = .gone) {roomId : RoomId}
    (apart : roomId ≠ scene.room) (config : Supervisor.Config) (sfuGrpcAddr : Address) :
    (closeDeadSfuRoom config sfuGrpcAddr roomId).Only (Still scene phase) := by
  have read : (getRoomAssignment roomId).run.Only (Still scene phase) := by
    refine Program.Only.except_bind (redisCommand_only ?_) fun _ => trivial
    refine supervisor_still before id id id (fun reply => ?_) fun _ => rfl
    cases reply with
    | ok values => simp [Phase.advance, apart]
    | error failure => rfl
  refine Program.Only.bind read fun binding => ?_
  split
  · trivial
  · trivial
  · split
    · trivial
    · refine Program.Only.bind (notifyOwner_still before config _ _) fun _ => ?_
      refine Program.Only.bind (releaseSlot_still before _) fun _ => ?_
      refine Program.Only.bind (logged_only (redisCommand_drop_only ?_)) fun _ => ?_
      · refine ⟨fun _ _ _ step => same_del apart step, fun reply => ?_⟩
        rcases before with rfl | rfl
        · simp [Phase.advance, apart]
        · rfl
      · exact logged_only (redisCommand_drop_only
          (supervisor_still before id id id (fun _ => rfl) fun _ => rfl))

/-- The supervisor deletes the binding of the room. -/
theorem reclaimRoom_safe (binding : RoomBinding) :
    (outline scene).Safe (fun last _ => last = .gone) .searching
      (reclaimRoom scene.room binding) := by
  refine Outline.Safe.bind
      ((Outline.Safe.of_inert inert_of_still (releaseSlot_still (.inl rfl) _)).mono ?_)
  intro _ _ same
  subst same
  refine Outline.Safe.bind (Outline.Safe.bind ?_)
  refine Threads.safe_redis fun world _ others progress allowed => ⟨trivial, ?_⟩
  intro deleted redis effect _
  have gone : (threads scene).advance Phase.searching (.redis (.del (.binding scene.room)))
      (.ok deleted) = Phase.gone := by
    simp [threads, Phase.advance]
  rw [gone]
  refine ⟨Progress.delete progress ⟨deleted, redis, effect, rfl, rfl⟩ (fun _ unbound => unbound)
    (fun _ owed => owed.elim) fun _ either => .inl (.inr ?_), ?_⟩
  · rcases either with present | own
    · exact allowed rfl present
    · exact own.elim
  · exact Outline.Safe.of_inert inert_of_still (logged_only (redisCommand_drop_only
      (supervisor_still (.inr rfl) id id id (fun _ => rfl) fun _ => rfl)))

/-- A route has the address its fields give. -/
theorem sfuGrpcAddr_of_ofFields {values : Map String String} {route : RoomRoute}
    (parsed : RoomRoute.ofFields values = .ok route) :
    route.sfuGrpcAddr = (values.lookup "sfu_grpc_addr").filter (· ≠ "") := by
  unfold RoomRoute.ofFields at parsed
  split at parsed
  · cases parsed
  · split at parsed
    · cases parsed
      rfl
    · cases parsed

/-- What the supervisor knows once it has read the room. -/
def BindingRead (scene : Scene) (last : Phase) : Except Failure (Option RoomBinding) → Prop
  | .error _ | .ok none => last = .gone
  | .ok (some binding) => last = .searching ∧ binding.sfuGrpcAddr = some scene.sfuAddr

/-- The supervisor goes on with the room exactly when it is there. -/
theorem closeDeadSfuRoom_safe (before : phase = .searching ∨ phase = .gone)
    (config : Supervisor.Config) :
    (outline scene).Safe (fun last _ => last = .gone) phase
      (closeDeadSfuRoom config scene.sfuAddr scene.room) := by
  have read : (outline scene).Safe
      (BindingRead scene) phase (getRoomAssignment scene.room).run := by
    refine Threads.safe_redis fun world handled others progress _ => ⟨trivial, ?_⟩
    intro values redis effect _
    obtain ⟨found, rfl⟩ := effect
    have move {next : Phase} (fits : next.Fits scene world) :
        Progress scene (world, handled) (next ::ₘ others) := by
      refine Progress.move progress (.refl scene world) fits (fun _ _ owed => ?_) fun own => ?_
      · rcases before with rfl | rfl <;> exact owed.elim
      · rcases before with rfl | rfl <;> exact own.elim
    have fits := progress.fits _ (Multiset.mem_cons_self _ _)
    obtain ⟨rfl, closed⟩ | ⟨filled, rfl⟩ := Progress.read progress found
    · have gone : (threads scene).advance phase (.redis (.hgetall (.binding scene.room))) (.ok ∅) =
          Phase.gone := by
        rcases before with rfl | rfl
        · simp [threads, Phase.advance]
        · rfl
      rw [gone]
      exact ⟨move closed, rfl⟩
    · have searching : phase = .searching := by
        refine before.resolve_right fun gone => ?_
        subst gone
        have absent : (world.redis.bindings.lookup scene.room) = none :=
          Option.not_isSome_iff_eq_none.mp fits
        rw [Redis.hash, absent] at found
        exact filled found
      subst searching
      have stays : (threads scene).advance Phase.searching
          (.redis (.hgetall (.binding scene.room))) (.ok scene.binding.fields) =
            Phase.searching := by
        simp [threads, Phase.advance, filled]
      rw [stays]
      refine ⟨move trivial, ?_⟩
      obtain ⟨route, parsed, routed⟩ := scene.routed
      change BindingRead scene _ (.ok (RoomBinding.ofFields scene.room scene.binding.fields))
      rw [RoomBinding.ofFields, if_neg filled]
      exact ⟨rfl, (sfuGrpcAddr_of_ofFields parsed).symm.trans routed⟩
  refine Outline.Safe.bind (read.mono ?_)
  intro phase found ended
  cases found with
  | error error => exact ended
  | ok found =>
      cases found with
      | none => exact ended
      | some binding =>
          obtain ⟨rfl, routed⟩ := ended
          change (outline scene).Safe _ _
            (if binding.sfuGrpcAddr ≠ some scene.sfuAddr then _ else _)
          rw [if_neg (not_not.mpr routed)]
          refine Outline.Safe.bind
            ((Outline.Safe.of_inert inert_of_still
              (notifyOwner_still (.inl rfl) config _ _)).mono ?_)
          intro _ _ same
          subst same
          exact reclaimRoom_safe binding

/-- When the supervisor has handled the dead SFU, the room has been handed to its owner or is
gone. -/
theorem handleDeadSfu_safe (config : Supervisor.Config) :
    (outline scene).Safe (fun last _ => last = .gone) (.scanning false none)
      (handleDeadSfu config scene.sfuAddr) := by
  refine Outline.Safe.bind ((scanFrom_safe fun seen => absurd seen Bool.false_ne_true).mono ?_)
  intro phase ids ended
  obtain ⟨roomIds, rfl, ahead⟩ := ended
  have loop : (outline scene).Safe (fun last _ => Ahead scene [] last) phase
      (roomIds.forM (closeDeadSfuRoom config scene.sfuAddr)) := by
    refine Outline.Safe.forM_rest ?_ ahead
    intro roomId rest phase _ ahead
    have before : phase = .searching ∨ phase = .gone := ahead.imp_left And.left
    by_cases own : roomId = scene.room
    · subst own
      exact (closeDeadSfuRoom_safe before config).mono fun _ _ gone => .inr gone
    · refine (Outline.Safe.of_inert inert_of_still
        (closeDeadSfuRoom_still before own config _)).mono ?_
      intro _ _ same
      subst same
      exact ahead.imp_left fun searching =>
        ⟨searching.1, (List.mem_cons.mp searching.2).resolve_left (Ne.symm own)⟩
  exact loop.mono fun _ _ ahead => ahead.resolve_left fun searching => List.not_mem_nil searching.2

/-! ## Runs -/

/-- A run ends that owes nothing to the store and has closed the room if it could. -/
theorem Progress.finish (progress : Progress scene (world, handled) (phase ::ₘ others))
    (owes : ∀ sessionId, ¬ phase.Owes sessionId)
    (committed : phase.Committed → Closed scene world) :
    Progress scene (world, handled || decide (phase = .gone)) others where
  binding := progress.binding
  fewer := progress.fewer
  reached := progress.reached
  alone := progress.alone
  linked := progress.linked
  known := progress.known
  recorded sessionId recorded := by
    have before := progress.recorded sessionId recorded
    simp only [Multiset.mem_cons, exists_eq_or_imp, owes, false_or] at before
    exact before
  fits other member := progress.fits other (Multiset.mem_cons_of_mem member)
  covered := by
    have before := progress.covered
    simp only [Multiset.mem_cons, exists_eq_or_imp] at before
    rcases before with present | (own | other) | closed
    · exact .inl present
    · exact .inr (.inr (committed own))
    · exact .inr (.inl other)
    · exact .inr (.inr closed)
  handled done := by
    rcases Bool.or_eq_true_iff.mp done with before | gone
    · exact progress.handled before
    · have fits := progress.fits phase (Multiset.mem_cons_self _ _)
      rw [of_decide_eq_true gone] at fits
      exact fits

/-- A run begins that has done nothing yet. -/
theorem Progress.start (progress : Progress scene (world, handled) phases)
    (same : Same scene world after) (fits : phase.Fits scene after) :
    Progress scene (after, handled) (phase ::ₘ phases) := by
  have idle : Progress scene (world, handled) (.elsewhere ::ₘ phases) :=
    { progress with
      recorded := fun sessionId recorded => (progress.recorded sessionId recorded).imp_right
        fun ⟨other, member, owed⟩ => ⟨other, Multiset.mem_cons_of_mem member, owed⟩
      fits := fun other member => by
        rcases Multiset.mem_cons.mp member with rfl | member
        · trivial
        · exact progress.fits other member
      covered := progress.covered.imp_right (Or.imp_left fun ⟨other, member, committed⟩ =>
        ⟨other, Multiset.mem_cons_of_mem member, committed⟩) }
  exact idle.move same fits (fun _ _ owed => owed.elim) fun own => own.elim

/-- A task that has ended relies on nothing. -/
theorem mayFinish_task {phase : Phase} (ended : Ended phase) (result : Unit) :
    (outline scene).MayFinish phase result := by
  intro state others progress
  obtain ⟨world, handled⟩ := state
  rcases ended with rfl | ⟨participants, rfl⟩ | rfl
  · exact Progress.finish progress (fun _ => id) False.elim
  · exact Progress.finish progress (fun _ => id) False.elim
  · exact Progress.finish progress (fun _ => List.not_mem_nil) fun _ =>
      progress.fits _ (Multiset.mem_cons_self _ _)

/-- What happens besides keeps the invariant. -/
theorem stable (scene : Scene) : (outline scene).Stable where
  start := by
    intro before others phase program after started progress
    obtain ⟨world, handled⟩ := before
    rcases started with ⟨config, rfl, rfl, rfl⟩ | ⟨task, -, state, addressed, named, rfl, rfl, rfl⟩
    · refine ⟨Progress.start progress (.refl scene world) ?_, (handleDeadSfu_safe config).mono ?_⟩
      · exact fun _ => .inr nofun
      · intro phase result gone state others progress
        obtain ⟨world, handled⟩ := state
        subst gone
        exact Progress.finish progress (fun _ => id) False.elim
    · have same : Same scene world { world with spawned := world.spawned.erase task } :=
        ⟨fun _ _ => rfl, fun _ => Iff.rfl, fun _ member => member, fun _ inside => inside,
          fun _ sent => sent, rfl, fun _ recorded => recorded⟩
      rw [addressed]
      by_cases own : state.node = scene.state.node
      · rw [if_pos own, closeRooms_eq own]
        exact ⟨Progress.start progress same trivial,
          (ownerTask_safe task.reason).mono fun _ _ ended => mayFinish_task ended _⟩
      · rw [if_neg own]
        exact ⟨Progress.start progress same trivial,
          (otherTask_safe own task.reason).mono fun _ _ ended => mayFinish_task ended _⟩
  discard _ _ _ never := never.elim
  environment _ _ _ never := never.elim

/-- No run is in progress, and the supervisor has not handled the SFU. -/
def begin (scene : Scene) (world : World) : (threads scene).system.Pool := ⟨(world, false), []⟩

/-- The supervisor has handled the SFU. -/
def done (pool : (threads scene).system.Pool) : Bool := pool.state.2

/-- Nothing has happened to the room. -/
theorem Live.progress (live : Live scene world) : Progress scene (world, false) 0 where
  binding hash found := by
    rw [live.bound] at found
    exact (Option.some.inj found).symm
  fewer nickname entry found := by rwa [live.peers] at found
  reached nickname entry found := by
    rw [← live.peers] at found
    exact .inl (Finmap.mem_of_lookup_eq_some found)
  alone := live.alone
  linked := live.linked
  known := live.known
  recorded sessionId recorded := .inl (live.recorded sessionId recorded)
  fits _ member := (Multiset.notMem_zero _ member).elim
  covered := .inl (by rw [Open, live.bound]; rfl)
  handled := nofun

/-- **Everyone in a room of a dead SFU is told that it is closed, and nothing names the
room any more**, once the supervisor and the tasks it asked for have finished, in
every run in which the supervisor deletes the binding only after a task of the owner
has read it. -/
theorem closed_of_quiescent (live : Live scene world) {pool : (threads scene).system.Pool}
    (run : Reaches (guard scene) (begin scene world) pool) (quiescent : pool.Quiescent)
    (handled : done pool = true) :
    Closed scene pool.state.1 ∧ ∀ sessionId, ¬ Recorded scene pool.state.1 sessionId := by
  have initial : (outline scene).Holds (begin scene world) := .of_quiescent live.progress
  have last : Progress scene pool.state 0 :=
    (initial.reaches (stable scene) run).quiescent quiescent
  have closed : Closed scene pool.state.1 := by
    rcases last.covered with present | ⟨_, member, -⟩ | closed
    · exact absurd present (last.handled handled)
    · exact (Multiset.notMem_zero _ member).elim
    · exact closed
  refine ⟨closed, fun sessionId recorded => ?_⟩
  rcases last.recorded sessionId recorded with linked | ⟨_, member, -⟩
  · exact closed.unlinked sessionId linked
  · exact (Multiset.notMem_zero _ member).elim

/-! ## The supervisor ahead of the task it asked for -/

/-- The test of what is assumed of a reply. -/
def assumes : (op : Op) → op.Reply → Bool
  | .trySend .., sent => sent
  | _, _ => true

/-- The test computes the assumption. -/
theorem assumes_iff {scene : Scene} {world : World} {op : Op} {reply : op.Reply} :
    assumes op reply = true ↔ (threads scene).assumed world op reply := by
  cases op <;> simp [assumes, threads]

instance (scene : Scene) (world : World) (op : Op) (reply : op.Reply) :
    Decidable ((threads scene).assumed world op reply) :=
  decidable_of_iff _ assumes_iff

instance decidableAllowed (scene : Scene) (world : World) (phase : Phase) (op : Op)
    (others : Multiset Phase) : Decidable (Allowed scene world phase op others) := by
  have committed : Decidable (∃ other ∈ others, other.Committed) :=
    Multiset.decidableExistsMultiset
  unfold Allowed
  split <;> infer_instance

instance (scene : Scene) :
    ∀ state phase op others, Decidable (guard scene state phase op others) :=
  fun state phase op others => decidableAllowed scene state.1 phase op others

/-- A room of one participant. -/
def sampleScene : Scene where
  state := sampleNode
  room := "room-1"
  sfuAddr := sampleSfu.grpcAddr
  peers := Finmap.singleton ("room-1", "alice") ⟨0, some sampleSfu.grpcAddr⟩
  binding := Redis.newBinding "127.0.0.1" "8080" "127.0.0.1:8080" sampleSfu
  named := by decide
  routed := ⟨⟨"127.0.0.1", 8080, "active", some sampleSfu.grpcAddr⟩, by decide +kernel, rfl⟩

/-- The deployment with this room. -/
def hosted : World :=
  let world := (World.fresh.assignTo "room-1").setNode sampleNode.node
    { peers := sampleScene.peers
      sessions := (SessionStore.mk ∅ ∅).upsert "session-1" ⟨"alice", some "room-1"⟩ }
  { world with
    redis := { world.redis with
      members := {("room-1", "alice")}
      sessions := Finmap.singleton "session-1"
        ⟨Hash.set (some (Hash.set none "nickname" "alice")) "room_id" "room-1", none⟩ } }

/-- What the owner of the sample room knows. -/
theorem owner_hosted : owner sampleScene hosted =
    { peers := sampleScene.peers
      sessions := (SessionStore.mk ∅ ∅).upsert "session-1" ⟨"alice", some "room-1"⟩ } :=
  (World.nodes_setNode (World.fresh.assignTo "room-1") sampleNode.node sampleNode.node _).trans
    (if_pos rfl)

/-- The sample room is live. -/
theorem live_hosted : Live sampleScene hosted where
  bound := rfl
  peers := by rw [owner_hosted]
  alone node nickname other member := by
    have absent : hosted.nodes node = World.fresh.nodes node := Function.update_of_ne other _ _
    rw [absent] at member
    exact Finmap.notMem_empty member
  linked sessionId inside := by
    rw [InRoom, owner_hosted] at inside
    obtain ⟨session, found, -⟩ := inside
    have own : sessionId = "session-1" := by
      by_contra other
      simp [SessionStore.upsert, SessionStore.dropPrevious, SessionStore.linkRoom,
        SessionStore.addRoomLink, other] at found
    rw [Linked, owner_hosted, own]
    decide +kernel
  known sessionId linked := by
    rw [Linked, owner_hosted] at linked
    have own : sessionId = "session-1" := by
      simpa [SessionStore.upsert, SessionStore.dropPrevious, SessionStore.linkRoom,
        SessionStore.addRoomLink, lookup_insert_if, sampleScene] using linked
    rw [owner_hosted, own]
    decide +kernel
  recorded sessionId recorded := by
    obtain ⟨session, found, -⟩ := recorded
    have own : sessionId = "session-1" := by
      have member : sessionId ∈ hosted.redis.sessions := Finmap.mem_of_lookup_eq_some found
      exact (Finmap.mem_singleton _ _ _).mp member
    rw [Linked, owner_hosted, own]
    decide +kernel

/-- The configuration of a supervisor that knows the node. -/
def supervisor : Supervisor.Config := ⟨[⟨"127.0.0.1:8080", "http://127.0.0.1:9090"⟩], 30, 2⟩

/-- The task the supervisor asks the node for. -/
def closeTask : CloseTask := ⟨sampleNode.node, sampleSfu.grpcAddr, "sfu_down"⟩

/-- The spawned task starts. -/
def launch (pool : (threads sampleScene).system.Pool) : Option (threads sampleScene).system.Pool :=
  if closeTask ∈ pool.state.1.spawned then
    some ⟨({ pool.state.1 with spawned := pool.state.1.spawned.erase closeTask }, pool.state.2),
      ⟨Phase.waiting, sampleNode.closeRoomsDueToSfuAddr sampleSfu.grpcAddr "sfu_down"⟩ ::
        pool.threads⟩
  else none

/-- The launch of a spawned task is a step. -/
theorem launch_step {guard : (threads sampleScene).system.Guard}
    (pool pool' : (threads sampleScene).system.Pool) (launched : launch pool = some pool') :
    Step guard pool pool' := by
  unfold launch at launched
  split at launched
  · rename_i spawned
    cases launched
    exact .start (.inr ⟨closeTask, spawned, sampleNode, rfl, rfl, rfl, rfl, rfl⟩)
  · cases launched

/-- The supervisor's run at its start. -/
def handling : (threads sampleScene).system.Pool :=
  ⟨(hosted, false), [⟨Phase.scanning false none, handleDeadSfu supervisor sampleSfu.grpcAddr⟩]⟩

/-- The supervisor starts to handle the dead SFU. -/
theorem reaches_handling {guard : (threads sampleScene).system.Guard} :
    Reaches guard (begin sampleScene hosted) handling :=
  .single (.start (.inl ⟨supervisor, rfl, rfl, rfl⟩))

/-- The task closes the room before the supervisor goes on. -/
def taskFirst : List (ℕ × Hint) :=
  (0, { rooms := [("room-1", ["alice"])] }) :: (0, {}) :: (0, { names := ["alice"] }) :: (0, {}) ::
    (0, {}) :: (0, { names := ["session-1"] }) :: turns 0 19

/-- A room is closed for everyone when the task runs at once. -/
theorem closed_of_quiescent_taskFirst : ∃ pool : (threads sampleScene).system.Pool,
    Reaches (guard sampleScene) (begin sampleScene hosted) pool ∧ pool.Quiescent ∧
      Closed sampleScene pool.state.1 ∧
      ∀ sessionId, ¬ Recorded sampleScene pool.state.1 sessionId := by
  have replayed : ((((threads sampleScene).sampler.replay (guard sampleScene)
      ((0, { names := ["room-1"] }) :: turns 0 2) handling).bind launch).bind
      ((threads sampleScene).sampler.replay (guard sampleScene) taskFirst)).any
      (fun pool => pool.threads.isEmpty ∧ done pool = true) = true := by
    decide +kernel
  obtain ⟨pool, run, passed⟩ := Sampler.exists_of_replay_launch launch_step replayed
  obtain ⟨quiescent, handled⟩ := of_decide_eq_true passed
  have quiescent := List.isEmpty_iff.mp quiescent
  have closed := closed_of_quiescent live_hosted (reaches_handling.trans run) quiescent handled
  exact ⟨pool, reaches_handling.trans run, quiescent, closed⟩

instance (scene : Scene) (world : World) (nickname : Nickname) :
    Decidable (Registered scene world nickname) :=
  inferInstanceAs (Decidable (_ ∈ (world.nodes scene.state.node).peers))

/-- **A room outlives its SFU**: the supervisor deletes the binding before the task
starts, so the task closes nothing. The participant stays registered, nothing was
sent to it, and its session still names the room, on the node and in the store. -/
theorem never_closed : Live sampleScene hosted ∧
    ∃ pool : (threads sampleScene).system.Pool,
      Reaches unguarded (begin sampleScene hosted) pool ∧ pool.Quiescent ∧ done pool = true ∧
        pool.state.1.spawned = 0 ∧ Registered sampleScene pool.state.1 "alice" ∧
        (pool.state.1.connections 0).queue = [] ∧
        ((owner sampleScene pool.state.1).sessions.bySessionId.lookup "session-1").bind
          SessionState.roomId = some "room-1" ∧
        (pool.state.1.redis.sessions.lookup "session-1").bind (·.hash.get "room_id") =
          some "room-1" := by
  refine ⟨live_hosted, ?_⟩
  have replayed : ((((threads sampleScene).sampler.replay unguarded
      ((0, { names := ["room-1"] }) :: turns 0 10) handling).bind launch).bind
      ((threads sampleScene).sampler.replay unguarded
        ((0, { rooms := [("room-1", ["alice"])] }) :: turns 0 2))).any
      (fun pool => pool.threads.isEmpty ∧ done pool = true ∧ pool.state.1.spawned = 0 ∧
        Registered sampleScene pool.state.1 "alice" ∧ (pool.state.1.connections 0).queue = [] ∧
        ((owner sampleScene pool.state.1).sessions.bySessionId.lookup "session-1").bind
          SessionState.roomId = some "room-1" ∧
        (pool.state.1.redis.sessions.lookup "session-1").bind (·.hash.get "room_id") =
          some "room-1") = true := by
    decide +kernel
  obtain ⟨pool, run, passed⟩ := Sampler.exists_of_replay_launch launch_step replayed
  obtain ⟨quiescent, rest⟩ := of_decide_eq_true passed
  exact ⟨pool, reaches_handling.trans run, List.isEmpty_iff.mp quiescent, rest⟩

end Callifornia.DeadSfu
