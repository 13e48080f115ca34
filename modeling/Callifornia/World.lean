import Callifornia.Concurrency.Interleaving
import Callifornia.Signaling.SessionRegistry

/-! # The state of the whole deployment and the atomic steps of its services

One Redis store, any number of signaling nodes with their registries, the peers
the SFUs hold, and the client connections. Every function of a service is a
program over the atomic steps `Op`; `World.exec` is the effect of a step when
nothing fails except where the step says so.
-/

namespace Callifornia

open FiniteMap Signaling Store Concurrency

namespace Signaling

/-- What a connection's task remembers between two messages. -/
structure ConnectionContext where
  sessionId : Option SessionId := none
  cachedSession : Option SessionState := none
  allowedIntent : Option String := none
  allowedRoomId : Option RoomId := none
  instanceLoadRegistered : Bool := false
  /-- The session whose lease the connection's renewal task keeps. -/
  leaseRenewer : Option SessionId := none
  deriving DecidableEq

/-- A client connection: the context and the outbound channel of its task, and
what the socket has carried to the client. -/
structure Connection where
  context : ConnectionContext := {}
  queue : List ServerMessage := []
  capacity : ℕ
  /-- The receiving end of the channel exists. -/
  receiving : Bool := true
  received : List ServerMessage := []

/-- The registries of a signaling node. -/
structure Node where
  peers : PeerRegistry
  sessions : SessionStore

/-- Why a call to an SFU failed. -/
inductive SfuClientError
  | transport
  | connect
  | timeout
  | rejected (message : String)
  deriving DecidableEq

/-- The reply of the SFU to `CreatePeer`, `DeletePeer` and `AddICECandidate`. -/
structure PeerResponse where
  success : Bool
  errorMessage : Option String
  deriving DecidableEq

/-- The reply of the SFU to `HandleSDP`. -/
structure SdpResponse where
  success : Bool
  errorMessage : Option String
  sdp : String
  sdpType : String
  deriving DecidableEq

end Signaling

/-- Why a Redis command failed. -/
inductive RedisFailure
  | timeout
  | redis
  deriving DecidableEq

/-- A task `close_rooms_due_to_sfu_addr` that a signaling node spawned. -/
structure CloseTask where
  node : NodeId
  sfuAddr : Address
  reason : String
  deriving DecidableEq

/-- The atomic steps of the services. -/
inductive Op
  | redis (command : Store.Command)
  | unixNow
  | newUuid
  | peers (node : NodeId) (command : PeerRegistry.Command)
  | sessions (node : NodeId) (command : SessionRegistry.Command)
  | trySend (sender : ConnectionId) (message : ServerMessage)
  | sendMessage (connection : ConnectionId) (message : ServerMessage)
  | getContext (connection : ConnectionId)
  | setContext (connection : ConnectionId) (change : ConnectionContext → ConnectionContext)
  | createPeer (sfuAddr : Address) (roomId : RoomId) (nickname : Nickname) (signalingId : NodeId)
  | deletePeer (sfuAddr : Address) (roomId : RoomId) (nickname : Nickname) (reason : String)
  | handleSdp (sfuAddr : Address) (roomId : RoomId) (nickname : Nickname) (sdp sdpType : String)
  | addIceCandidate (sfuAddr : Address) (roomId : RoomId) (nickname : Nickname)
      (candidate sdpMid : String)
  | closeRoomsBySfu (task : CloseTask)
  | pingSignaling (node : NodeId)
  | pingSfu (sfuAddr : Address)
  /-- A bounded loop has used up its bound; the run stops here. -/
  | outOfFuel

/-- What a step replies. -/
@[reducible] def Op.Reply : Op → Type
  | .redis command => Except RedisFailure command.Reply
  | .unixNow => ℤ
  | .newUuid => String
  | .peers _ command => command.Reply
  | .sessions _ command => command.Reply
  | .trySend .. | .sendMessage .. | .pingSignaling _ | .pingSfu _ => Bool
  | .getContext _ => ConnectionContext
  | .setContext .. => Unit
  | .createPeer .. | .deletePeer .. | .addIceCandidate .. => Except SfuClientError PeerResponse
  | .handleSdp .. => Except SfuClientError SdpResponse
  | .closeRoomsBySfu _ => Bool
  | .outOfFuel => Empty

/-- A program of the services. -/
abbrev Call := Program Op Op.Reply

/-- The program of one step. -/
abbrev issue (op : Op) : Call op.Reply := Program.perform op

/-- The state of the deployment. -/
structure World where
  /-- The time in milliseconds, the same for all services. -/
  now : ℕ
  redis : Redis
  /-- The identifiers drawn so far. -/
  issued : Finset String
  nodes : NodeId → Node
  /-- The peers the SFUs hold. -/
  sfuPeers : Finset (Address × RoomId × Nickname)
  connections : ConnectionId → Connection
  /-- Spawned tasks that have not started. -/
  spawned : Multiset CloseTask

namespace World

/-- A deployment nobody has used yet. -/
def fresh : World where
  now := 0
  redis := .empty
  issued := ∅
  nodes _ := { peers := ∅, sessions := ⟨∅, ∅⟩ }
  sfuPeers := ∅
  connections _ := { capacity := 256 }
  spawned := 0

/-- The deployment at a later time: keys whose deadline has passed are gone. -/
def elapse (world : World) (time : ℕ) : World :=
  { world with now := time, redis := world.redis.expireUntil time }

/-- Replace the state of a node. -/
def setNode (world : World) (id : NodeId) (node : Node) : World :=
  { world with nodes := Function.update world.nodes id node }

/-- Change the state of a connection. -/
def setConnection (world : World) (id : ConnectionId) (connection : Connection) : World :=
  { world with connections := Function.update world.connections id connection }

/-- The outbound channel accepts one more message. -/
def Accepts (world : World) (sender : ConnectionId) : Prop :=
  (world.connections sender).receiving = true ∧
    (world.connections sender).queue.length < (world.connections sender).capacity

instance (world : World) (sender : ConnectionId) : Decidable (world.Accepts sender) :=
  inferInstanceAs (Decidable (_ ∧ _))

/-- Queue a message for a connection. -/
def enqueue (world : World) (sender : ConnectionId) (message : ServerMessage) : World :=
  world.setConnection sender
    { world.connections sender with queue := (world.connections sender).queue ++ [message] }

/-- The client of a connection receives a message. -/
def receive (world : World) (connection : ConnectionId) (message : ServerMessage) : World :=
  world.setConnection connection
    { world.connections connection with
      received := (world.connections connection).received ++ [message] }

/-- The effect of a step. A socket write, a peer creation and a probe may fail;
nothing else does. -/
def exec : (op : Op) → World → op.Reply → World → Prop
  | .redis command, world, reply, after =>
      ∃ value redis, world.redis.exec world.now command value redis ∧ reply = .ok value ∧
        after = { world with redis }
  | .unixNow, world, reply, after => reply = (world.now / 1000 : ℕ) ∧ after = world
  | .newUuid, world, reply, after =>
      (reply ∉ world.issued ∧ reply ≠ "") ∧
        after = { world with issued := insert reply world.issued }
  | .peers node command, world, reply, after =>
      ∃ peers, PeerRegistry.exec command (world.nodes node).peers reply peers ∧
        after = world.setNode node { world.nodes node with peers }
  | .sessions node command, world, reply, after =>
      ∃ sessions, SessionRegistry.exec command (world.nodes node).sessions reply sessions ∧
        after = world.setNode node { world.nodes node with sessions }
  | .trySend sender message, world, reply, after =>
      reply = decide (world.Accepts sender) ∧
        after = if world.Accepts sender then world.enqueue sender message else world
  | .sendMessage connection message, world, reply, after =>
      after = if reply then world.receive connection message else world
  | .getContext connection, world, reply, after =>
      reply = (world.connections connection).context ∧ after = world
  | .setContext connection change, world, _, after =>
      after = world.setConnection connection
        { world.connections connection with
          context := change (world.connections connection).context }
  | .createPeer sfuAddr roomId nickname _, world, reply, after =>
      (reply = .ok ⟨true, none⟩ ∧ roomId ≠ "" ∧ nickname ≠ "" ∧
        (sfuAddr, roomId, nickname) ∉ world.sfuPeers ∧
        after = { world with sfuPeers := insert (sfuAddr, roomId, nickname) world.sfuPeers }) ∨
      ((∃ errorMessage, reply = .ok ⟨false, some errorMessage⟩) ∧ after = world)
  | .deletePeer sfuAddr roomId nickname _, world, reply, after =>
      reply = .ok ⟨true, none⟩ ∧
        after = { world with sfuPeers := world.sfuPeers.erase (sfuAddr, roomId, nickname) }
  | .handleSdp .., world, reply, after => (∃ response, reply = .ok response) ∧ after = world
  | .addIceCandidate .., world, reply, after => (∃ response, reply = .ok response) ∧ after = world
  | .closeRoomsBySfu task, world, reply, after =>
      reply = true ∧ after = { world with spawned := task ::ₘ world.spawned }
  | .pingSignaling _, world, _, after => after = world
  | .pingSfu _, world, _, after => after = world
  | .outOfFuel, _, reply, _ => nomatch reply

end World

end Callifornia
