import Callifornia.Concurrency.Contracts
import Callifornia.Connector.Rooms
import Callifornia.Signaling.Connection
import Callifornia.Signaling.SfuEvents
import Callifornia.Supervisor.Probes
import Callifornia.Supervisor.Seeding

/-! # The whole deployment

All services run at once: any number of connectors' requests, of the connections, SFU events,
purges and background tasks of any number of signaling nodes, and of the supervisor's loops. A
task may stop at any step, as when its process dies; every call to Redis or to an SFU may fail,
with or without effect; time passes, nodes restart, and SFUs lose peers.

The supervisor's own heartbeat is left out: only a create of the connector reads it, and here a
create runs with whatever it may have read. While Redis is down, every call to it fails.
-/

namespace Callifornia

open Concurrency FiniteMap Store Signaling

/-- A request, a connection, or one iteration of a background task. -/
inductive Task
  | auth (config : Connector.Config) (nickname : String)
  | create (config : Connector.RoutingConfig) (isUuid : String → Bool) (jwt : Jwt)
      (status : Except Connector.RedisError (Option Connector.SupervisorStatus))
      (sessionId : SessionId)
  | join (config : Connector.RoutingConfig) (isUuid : String → Bool) (jwt : Jwt)
      (sessionId : SessionId) (roomId : RoomId)
  | logout (sessionId : SessionId)
  | sessionRenew (config : Connector.Config) (sessionId : SessionId)
  | connection (codec : Codec) (state : State) (client : ConnectionId) (jwt : Jwt)
      (events : List Event)
  | renewLease (sessionId : SessionId) (ttlSecs : ℕ)
  | sfuEvent (state : State) (event : SfuEvent)
  | closeRooms (state : State) (sfuAddr : Address) (reason : String)
  /-- A purge that has set the flag of its node; one that finds it set stops at once. -/
  | purge (state : State) (dependency : String)
  | seed (inventory : List Supervisor.SfuCandidate)
  | signalingProbe (config : Supervisor.Config)
  | sfuProbe (config : Supervisor.Config)
  | janitor (config : Supervisor.Config)

def Task.program : Task → Call Unit
  | .auth config nickname => Functor.mapConst () (Connector.auth config nickname).run
  | .create config isUuid jwt status sessionId =>
      Functor.mapConst () (Connector.create config isUuid jwt status sessionId).run
  | .join config isUuid jwt sessionId roomId =>
      Functor.mapConst () (Connector.join config isUuid jwt sessionId roomId).run
  | .logout sessionId => Functor.mapConst () (Connector.logout sessionId).run
  | .sessionRenew config sessionId =>
      Functor.mapConst () (Connector.sessionRenew config sessionId).run
  | .connection codec state client jwt events => handleWs codec state client jwt events
  | .renewLease sessionId ttlSecs => Functor.mapConst () (renewSessionTtl sessionId ttlSecs).run
  | .sfuEvent state event => handleSfuEvent state event
  | .closeRooms state sfuAddr reason => state.closeRoomsDueToSfuAddr sfuAddr reason
  | .purge state dependency => state.runPurge dependency
  | .seed inventory => Supervisor.logged (Supervisor.seedSfuInventory inventory)
  | .signalingProbe config => Supervisor.signalingProbeTick config
  | .sfuProbe config => Supervisor.sfuProbeTick config
  | .janitor config => Supervisor.logged (Supervisor.runJanitorIteration config)

namespace Deployment

/-- The reply of a call that failed or timed out. -/
def Fails : (op : Op) → op.Reply → Prop
  | .redis _, .error _ => True
  | .createPeer .., .error _ => True
  | .deletePeer .., .error _ => True
  | .handleSdp .., .error _ => True
  | .addIceCandidate .., .error _ => True
  | .closeRoomsBySfu _, reply => reply = false
  | _, _ => False

/-- A step. The effect of a call that fails may be lost, or only its reply. -/
inductive Steps : (op : Op) → World → op.Reply → World → Prop
  | succeeds {op : Op} {before after : World} {reply : op.Reply}
      (effect : World.exec op before reply after) : Steps op before reply after
  | refused {op : Op} {before : World} {reply : op.Reply} (fails : Fails op reply) :
      Steps op before reply before
  | unanswered {op : Op} {before after : World} {reply answer : op.Reply} (fails : Fails op reply)
      (effect : World.exec op before answer after) : Steps op before reply after

/-- What changes without a task: time passes, a node restarts, or SFUs lose peers. -/
inductive Changes : World → World → Prop
  | elapse {world : World} {time : ℕ} (later : world.now ≤ time) :
      Changes world (world.elapse time)
  | restart {world : World} (node : NodeId) :
      Changes world (world.setNode node { peers := ∅, sessions := ⟨∅, ∅⟩ })
  | lose {world : World} {kept : Finset (Address × RoomId × Nickname)}
      (part : kept ⊆ world.sfuPeers) : Changes world { world with sfuPeers := kept }

/-- A new connection has no context yet. -/
def opened (world : World) : Task → World
  | .connection _ _ client _ _ =>
      world.setConnection client { capacity := (world.connections client).capacity }
  | _ => world

/-- The tasks that may start, and the replies that may come. -/
structure Restriction where
  runs : Task → Prop
  possible : (op : Op) → op.Reply → Prop

/-- Where a room is kept: its signaling node and its SFU. -/
structure Placement where
  owner : NodeId
  sfuAddr : Option Address
  deriving DecidableEq

/-- The placement of which a route tells. -/
def placementOf (route : RoomRoute) : Placement where
  owner := route.ownerHost ++ ":" ++ toString route.ownerPort.toNat
  sfuAddr := route.sfuGrpcAddr

/-- How far an iteration of the janitor is. -/
structure Sweep where
  /-- The nodes it has read as alive. -/
  alive : Option (List NodeId) := none
  /-- The scan of the bindings has begun. -/
  began : Bool := false
  found : Finset RoomId := ∅
  /-- Bound since the scan began and not found yet. -/
  owed : Finset RoomId := ∅
  listed : Finset RoomId := ∅
  /-- The scan of the member sets has ended. -/
  ended : Bool := false
  /-- The room whose binding it has read last, and the owner that was named. -/
  binding : Option (RoomId × NodeId) := none
  /-- The session whose owner it has read last, if it has not deleted it since. -/
  session : Option (SessionId × NodeId) := none
  deriving DecidableEq

namespace Sweep

/-- The rooms that the scan of the bindings finds if they stay bound. -/
def covered (sweep : Sweep) : Finset RoomId := sweep.found ∪ sweep.owed

/-- How far the iteration is after a step. -/
def advance (sweep : Sweep) : (op : Op) → op.Reply → Sweep
  | .redis (.zrangeByScore .signalingNodes _), .ok alive => { sweep with alive := some alive }
  | .redis (.scan .bindings _), .ok page =>
      { sweep with
        began := true
        found := sweep.found ∪ page.1.toFinset
        owed := page.2.getD ∅ }
  | .redis (.scan .members _), .ok page =>
      { sweep with
        listed := sweep.listed ∪ page.1.toFinset
        ended := page.2.isNone }
  | .redis (.hgetall (.binding roomId)), .ok values =>
      { sweep with
        binding := (values.lookup "signaling_owner_id").map fun owner => (roomId, owner) }
  | .redis (.hget (.session sessionId) _), .ok owner =>
      { sweep with session := owner.map fun owner => (sessionId, owner) }
  | .redis (.del (.session _)), _ => { sweep with session := none }
  | _, _ => sweep

end Sweep

/-- What a task knows: the id it has drawn last and not yet bound, the placements it has read or
made, and, of an iteration of the janitor, how far it is. -/
structure Knowledge where
  drawn : Option RoomId := none
  placed : List (RoomId × Placement) := []
  sweep : Option Sweep := none
  deriving DecidableEq

/-- What a task knows when it starts. -/
def Knowledge.initial : Task → Knowledge
  | .janitor _ => { sweep := some {} }
  | _ => {}

/-- The task has read or made the placement of the room. -/
def Knowledge.Learned (known : Knowledge) (roomId : RoomId) (placement : Placement) : Prop :=
  (roomId, placement) ∈ known.placed

/-- The id that is drawn and not yet bound after a step. -/
def redraw (drawn : Option RoomId) : (op : Op) → op.Reply → Option RoomId
  | .newUuid, id => some id
  | .redis (.assignRoomToSfu ..), _ => none
  | _, _ => drawn

/-- The placements of which a reply tells. -/
def told : (op : Op) → op.Reply → List (RoomId × Placement)
  | .redis (.hgetall (.binding roomId)), .ok values =>
      ((RoomRoute.ofFields values).toOption.map fun route => (roomId, placementOf route)).toList
  | .redis (.assignRoomToSfu roomId ownerHost ownerPort ..), .ok names =>
      ((SfuAssignment.ofReply names).toOption.map fun assignment =>
        (roomId, ⟨ownerHost ++ ":" ++ ownerPort, some assignment.sfuGrpcAddr⟩)).toList
  | .peers node .snapshotRoomsWithSfu, rooms =>
      rooms.flatMap fun room => room.2.map fun participant => (room.1, ⟨node, participant.2⟩)
  | _, _ => []

/-- What a task knows after a step. -/
def advance (known : Knowledge) (op : Op) (reply : op.Reply) : Knowledge where
  drawn := redraw known.drawn op reply
  placed := told op reply ++ known.placed
  sweep := known.sweep.map (·.advance op reply)

theorem learned_advance {known : Knowledge} {op : Op} {reply : op.Reply} {roomId : RoomId}
    {placement : Placement} : (advance known op reply).Learned roomId placement ↔
      (roomId, placement) ∈ told op reply ∨ known.Learned roomId placement :=
  List.mem_append

/-- A route that is read is learned. -/
theorem learned_read (known : Knowledge) {roomId : RoomId} {values : Map String String}
    {route : RoomRoute} (read : RoomRoute.ofFields values = .ok route) :
    (advance known (.redis (.hgetall (.binding roomId))) (.ok values)).Learned roomId
      (placementOf route) := by
  refine learned_advance.mpr (.inl ?_)
  change _ ∈ (Option.map _ (RoomRoute.ofFields values).toOption).toList
  rw [read]
  exact List.mem_singleton_self _

/-- A placement that is made is learned. -/
theorem learned_assigned (known : Knowledge) (roomId : RoomId)
    (ownerHost ownerPort ownerId : String) (now staleAfter : ℤ) {names : List String}
    {assignment : SfuAssignment} (made : SfuAssignment.ofReply names = .ok assignment) :
    (advance known
      (.redis (.assignRoomToSfu roomId ownerHost ownerPort ownerId now staleAfter))
      (.ok names)).Learned roomId ⟨ownerHost ++ ":" ++ ownerPort, some assignment.sfuGrpcAddr⟩ := by
  refine learned_advance.mpr (.inl ?_)
  change _ ∈ (Option.map _ (SfuAssignment.ofReply names).toOption).toList
  rw [made]
  exact List.mem_singleton_self _

/-- Where a registered peer is kept is learned by the snapshot of its registry. -/
theorem learned_snapshot (known : Knowledge) {node : NodeId}
    {rooms : List (RoomId × List (Nickname × Option Address))}
    {room : RoomId × List (Nickname × Option Address)} {participant : Nickname × Option Address}
    (listed : room ∈ rooms) (member : participant ∈ room.2) :
    (advance known (.peers node .snapshotRoomsWithSfu) rooms).Learned room.1
      ⟨node, participant.2⟩ := by
  refine learned_advance.mpr (.inl ?_)
  exact List.mem_flatMap.mpr ⟨room, listed, List.mem_map.mpr ⟨participant, member, rfl⟩⟩

/-- The deployment, in which any number of tasks run. -/
def deployment (restriction : Restriction) : System Op Op.Reply where
  State := World
  Phase := Knowledge
  Result := Unit
  exec op before reply after := Steps op before reply after ∧ restriction.possible op reply
  advance := advance
  start before _ phase program after := ∃ task, restriction.runs task ∧
    phase = .initial task ∧ program = task.program ∧ after = opened before task
  finish world _ _ := world
  discard _ _ := True
  environment before _ after := Changes before after

/-! ## A fixed configuration -/

/-- What the deployment is set up with. -/
structure Setup where
  /-- The configured SFUs: their address and capacity. -/
  inventory : InstanceId → Option (Address × ℕ)
  /-- The configurations of the signaling nodes. -/
  nodes : Set Signaling.Config
  /-- The addresses at which no SFU answers. -/
  dead : Set Address

namespace Setup

/-- Every supervisor is configured with this inventory, every node with one of these
configurations. -/
def Runs (setup : Setup) : Task → Prop
  | .seed inventory => ∀ candidate ∈ inventory,
      setup.inventory candidate.instanceId = some (candidate.grpcAddr, candidate.maxRooms)
  | .connection _ state _ _ _ => state.config ∈ setup.nodes
  | _ => True

/-- No probe of a dead address succeeds. -/
def Possible (setup : Setup) : (op : Op) → op.Reply → Prop
  | .pingSfu sfuAddr, reply => reply = true → sfuAddr ∉ setup.dead
  | _, _ => True

def restriction (setup : Setup) : Restriction := ⟨setup.Runs, setup.Possible⟩

end Setup

/-- The deployment whose supervisors, however often they are restarted, are all configured with
one inventory. -/
abbrev system (setup : Setup) : System Op Op.Reply := deployment setup.restriction

end Deployment

end Callifornia
