import Callifornia.World

/-! # What a step leaves unchanged

Each part of the deployment is written by few commands; every other step keeps it.
-/

namespace Callifornia

open FiniteMap Store Signaling

namespace Store

/-- The command may change a binding hash. -/
def Command.WritesBindings : Command → Prop
  | .hset (.binding _) _ _ | .del (.binding _) | .assignRoomToSfu .. => True
  | _ => False

/-- The command may change a member set. -/
def Command.WritesMembers : Command → Prop
  | .sadd .. | .srem .. | .delMembers _ => True
  | _ => False

/-- The command may change a session hash. -/
def Command.WritesSessions : Command → Prop
  | .hset (.session _) _ _ | .del (.session _) | .expire .. => True
  | _ => False

/-- The command may change a plain string. -/
def Command.WritesStrings : Command → Prop
  | .setNx .. | .compareAndDel .. => True
  | _ => False

/-- The command may change this sorted set. -/
def Command.WritesScores (set : SortedSet) : Command → Prop
  | .zadd other _ _ | .zincr other _ _ | .zrem other _ | .zremrangeByScore other _ => other = set
  | .assignRoomToSfu .. => set = .roomLoad
  | _ => False

namespace Redis

variable {now : ℕ} {command : Command} {store after : Redis} {reply : command.Reply}

/-- The assignment script changes nothing, or binds an unbound room and adds to one load. -/
theorem assignRoomToSfu_cases (store : Redis) (roomId : RoomId)
    (ownerHost ownerPort ownerId : String) (clock staleAfter : ℤ) (records : List SfuInstance) :
    (∃ reply, store.assignRoomToSfu roomId ownerHost ownerPort ownerId clock staleAfter records =
        (reply, store)) ∨
      ∃ best, store.bindings.lookup roomId = none ∧
        store.assignRoomToSfu roomId ownerHost ownerPort ownerId clock staleAfter records =
          ([best.instanceId, best.grpcAddr],
            store.assign roomId ownerHost ownerPort ownerId best) := by
  unfold assignRoomToSfu
  cases store.bestInstance clock staleAfter records with
  | none => exact .inl ⟨[], rfl⟩
  | some best =>
      cases bound : store.bindings.lookup roomId with
      | none => exact .inr ⟨best, rfl, rfl⟩
      | some hash => exact .inl ⟨_, rfl⟩

/-- The store after the assignment script. -/
theorem exec_assign {roomId : RoomId} {ownerHost ownerPort ownerId : String} {clock staleAfter : ℤ}
    {store after : Redis} {reply : List String}
    (step : exec now (.assignRoomToSfu roomId ownerHost ownerPort ownerId clock staleAfter)
      store reply after) :
    after = store ∨ ∃ best, store.bindings.lookup roomId = none ∧
      reply = [best.instanceId, best.grpcAddr] ∧
      after = store.assign roomId ownerHost ownerPort ownerId best := by
  obtain ⟨records, -, outcome⟩ := step
  rcases assignRoomToSfu_cases store roomId ownerHost ownerPort ownerId clock staleAfter records
    with ⟨_, same⟩ | ⟨best, absent, assigned⟩
  · rw [same] at outcome
    exact .inl (Prod.mk.inj outcome).2
  · rw [assigned] at outcome
    exact .inr ⟨best, absent, (Prod.mk.inj outcome).1, (Prod.mk.inj outcome).2⟩

/-- A compare and delete changes nothing or one string. -/
theorem exec_compareAndDel {key : StringKey} {value : String} {store after : Redis} {reply : ℕ}
    (step : exec now (.compareAndDel key value) store reply after) :
    after = store ∨ after = { store with strings := store.strings.erase key } := by
  simp only [exec] at step
  split at step
  · exact .inr step.2
  · exact .inl step.2

/-- A set if absent changes nothing or one string. -/
theorem exec_setNx {key : StringKey} {value : String} {expiryMs : Option ℕ} {store after : Redis}
    {reply : Bool} (step : exec now (.setNx key value expiryMs) store reply after) :
    after = store ∨ after = { store with
      strings := store.strings.insert key ⟨value, expiryMs.map (now + ·)⟩ } := by
  obtain ⟨-, effect⟩ := step
  split at effect
  · exact .inr effect
  · exact .inl effect

/-- The command changes only the parts it may write. -/
structure Keeps (command : Command) (store after : Redis) : Prop where
  bindings : ¬ command.WritesBindings → after.bindings = store.bindings
  members : ¬ command.WritesMembers → after.members = store.members
  sessions : ¬ command.WritesSessions → after.sessions = store.sessions
  scores : ∀ set, ¬ command.WritesScores set → after.scores set = store.scores set

/-- Changing nothing keeps everything. -/
theorem Keeps.refl (command : Command) (store : Redis) : Keeps command store store :=
  ⟨fun _ => rfl, fun _ => rfl, fun _ => rfl, fun _ _ => rfl⟩

/-- A store that is the same keeps everything. -/
theorem Keeps.of_eq {command : Command} {store after : Redis} (same : after = store) :
    Keeps command store after :=
  same ▸ .refl command store

/-- Writing one sorted set keeps everything else. -/
theorem keeps_setScores {command : Command} {set : SortedSet}
    (writes : ∀ other, set = other → command.WritesScores other) (store : Redis)
    (scores : Map String ℤ) : Keeps command store (store.setScores set scores) :=
  ⟨fun _ => rfl, fun _ => rfl, fun _ => rfl, fun other unwritten =>
    Function.update_of_ne (fun same => unwritten (writes other same.symm)) _ _⟩

/-- Every command changes only the parts it may write. -/
theorem exec_keeps (step : exec now command store reply after) : Keeps command store after := by
  cases command with
  | hset key =>
      rw [show after = _ from step]
      cases key with
      | binding => exact ⟨fun un => (un trivial).elim, fun _ => rfl, fun _ => rfl, fun _ _ => rfl⟩
      | session => exact ⟨fun _ => rfl, fun _ => rfl, fun un => (un trivial).elim, fun _ _ => rfl⟩
  | del key =>
      rw [step.2]
      cases key with
      | binding => exact ⟨fun un => (un trivial).elim, fun _ => rfl, fun _ => rfl, fun _ _ => rfl⟩
      | session => exact ⟨fun _ => rfl, fun _ => rfl, fun un => (un trivial).elim, fun _ _ => rfl⟩
  | expire =>
      rw [step.2]
      exact ⟨fun _ => rfl, fun _ => rfl, fun un => (un trivial).elim, fun _ _ => rfl⟩
  | assignRoomToSfu =>
      rcases exec_assign step with rfl | ⟨best, -, -, rfl⟩
      · exact .refl _ _
      · exact ⟨fun un => (un trivial).elim, fun _ => rfl, fun _ => rfl,
          fun set un => Function.update_of_ne un _ _⟩
  | sadd =>
      rw [show after = _ from step]
      exact ⟨fun _ => rfl, fun un => (un trivial).elim, fun _ => rfl, fun _ _ => rfl⟩
  | srem | delMembers =>
      rw [step.2]
      exact ⟨fun _ => rfl, fun un => (un trivial).elim, fun _ => rfl, fun _ _ => rfl⟩
  | zadd | zincr | zrem | zremrangeByScore =>
      rw [show after = _ from step]
      refine keeps_setScores ?_ _ _
      exact fun _ same => same
  | compareAndDel =>
      rcases exec_compareAndDel step with rfl | rfl
      · exact .refl _ _
      · exact ⟨fun _ => rfl, fun _ => rfl, fun _ => rfl, fun _ _ => rfl⟩
  | setNx =>
      rcases exec_setNx step with rfl | rfl
      · exact .refl _ _
      · exact ⟨fun _ => rfl, fun _ => rfl, fun _ => rfl, fun _ _ => rfl⟩
  | hsetInstance =>
      rw [show after = _ from step]
      exact ⟨fun _ => rfl, fun _ => rfl, fun _ => rfl, fun _ _ => rfl⟩
  | ping => exact .of_eq step
  | _ => exact .of_eq step.2

/-- A command that writes no string leaves them. -/
theorem exec_strings (step : exec now command store reply after)
    (other : ¬ command.WritesStrings) : after.strings = store.strings := by
  cases command with
  | setNx | compareAndDel => exact absurd trivial other
  | hset key =>
      rw [show after = _ from step]
      cases key <;> rfl
  | del key =>
      rw [step.2]
      cases key <;> rfl
  | assignRoomToSfu => rcases exec_assign step with rfl | ⟨best, -, -, rfl⟩ <;> rfl
  | ping | sadd | zadd | zincr | zrem | zremrangeByScore | hsetInstance =>
      obtain rfl : after = _ := step
      rfl
  | _ =>
      obtain ⟨-, rfl⟩ := step
      rfl

end Redis

end Store

/-! ## Steps -/

/-- The step is a Redis command of this kind. -/
def Op.IsRedis (kind : Command → Prop) : Op → Prop
  | .redis command => kind command
  | _ => False

namespace World

variable {op : Op} {world after : World} {reply : op.Reply}

/-- The step changes the store only as its command may. -/
structure KeepsRedis (op : Op) (world after : World) : Prop where
  bindings : ¬ op.IsRedis Command.WritesBindings → after.redis.bindings = world.redis.bindings
  members : ¬ op.IsRedis Command.WritesMembers → after.redis.members = world.redis.members
  sessions : ¬ op.IsRedis Command.WritesSessions → after.redis.sessions = world.redis.sessions
  scores : ∀ set, ¬ op.IsRedis (Command.WritesScores set) →
    after.redis.scores set = world.redis.scores set

/-- A step that leaves Redis keeps everything in it. -/
theorem KeepsRedis.of_eq (same : after.redis = world.redis) : KeepsRedis op world after := by
  refine ⟨fun _ => ?_, fun _ => ?_, fun _ => ?_, fun _ _ => ?_⟩ <;> rw [same]

/-- A step that is no Redis command keeps the store. -/
theorem exec_redis (step : World.exec op world reply after) (other : ¬ op.IsRedis fun _ => True) :
    after.redis = world.redis := by
  cases op with
  | redis => exact absurd trivial other
  | peers | sessions =>
      obtain ⟨_, _, rfl⟩ := step
      rfl
  | trySend =>
      obtain ⟨-, rfl⟩ := step
      split <;> rfl
  | sendMessage =>
      rw [show after = _ from step]
      split <;> rfl
  | createPeer => rcases step with ⟨_, _, _, _, rfl⟩ | ⟨_, rfl⟩ <;> rfl
  | outOfFuel => exact reply.elim
  | setContext =>
      rw [show after = _ from step]
      rfl
  | pingSignaling | pingSfu => rw [show after = _ from step]
  | _ => rw [step.2]

/-- Every operation keeps what its command does not write. -/
theorem exec_keepsRedis (step : World.exec op world reply after) : KeepsRedis op world after := by
  cases op with
  | redis command =>
      obtain ⟨value, redis, effect, -, rfl⟩ := step
      have keeps := Redis.exec_keeps effect
      exact ⟨keeps.bindings, keeps.members, keeps.sessions, keeps.scores⟩
  | _ => exact .of_eq (exec_redis step id)

/-- An operation that writes no string leaves them. -/
theorem exec_strings (step : World.exec op world reply after)
    (other : ¬ op.IsRedis Command.WritesStrings) : after.redis.strings = world.redis.strings := by
  cases op with
  | redis command =>
      obtain ⟨value, redis, effect, -, rfl⟩ := step
      exact Redis.exec_strings effect other
  | _ => rw [exec_redis step id]

/-- Replacing a node leaves the other nodes. -/
@[simp] theorem nodes_setNode (world : World) (id query : NodeId) (node : Node) :
    (world.setNode id node).nodes query = if query = id then node else world.nodes query := by
  unfold setNode
  by_cases same : query = id
  · subst same
    simp only [Function.update_self, ↓reduceIte]
  · simp only [Function.update_of_ne same, same, ↓reduceIte]

/-- Replacing the peers of a node keeps the sessions of every node. -/
@[simp] theorem sessions_setPeers (world : World) (id query : NodeId) (peers : PeerRegistry) :
    ((world.setNode id { world.nodes id with peers }).nodes query).sessions =
      (world.nodes query).sessions := by
  rw [nodes_setNode]
  split
  · rename_i same
    rw [same]
  · rfl

/-- Replacing the sessions of a node keeps the peers of every node. -/
@[simp] theorem peers_setSessions (world : World) (id query : NodeId) (sessions : SessionStore) :
    ((world.setNode id { world.nodes id with sessions }).nodes query).peers =
      (world.nodes query).peers := by
  rw [nodes_setNode]
  split
  · rename_i same
    rw [same]
  · rfl

/-- The step may change a registry. -/
def WritesNodes : Op → Prop
  | .peers .. | .sessions .. => True
  | _ => False

/-- An operation that writes no node leaves them. -/
theorem exec_nodes (step : World.exec op world reply after) (other : ¬ WritesNodes op) :
    after.nodes = world.nodes := by
  cases op with
  | peers | sessions => exact absurd trivial other
  | redis =>
      obtain ⟨_, _, -, -, rfl⟩ := step
      rfl
  | trySend =>
      obtain ⟨-, rfl⟩ := step
      split <;> rfl
  | sendMessage =>
      rw [show after = _ from step]
      split <;> rfl
  | createPeer => rcases step with ⟨_, _, _, _, rfl⟩ | ⟨_, rfl⟩ <;> rfl
  | outOfFuel => exact reply.elim
  | setContext =>
      rw [show after = _ from step]
      rfl
  | pingSignaling | pingSfu => rw [show after = _ from step]
  | _ => rw [step.2]

/-- Only drawing an identifier issues one. -/
theorem exec_issued (step : World.exec op world reply after) (other : op ≠ .newUuid) :
    after.issued = world.issued := by
  cases op with
  | newUuid => exact absurd rfl other
  | redis =>
      obtain ⟨_, _, -, -, rfl⟩ := step
      rfl
  | peers | sessions =>
      obtain ⟨_, _, rfl⟩ := step
      rfl
  | trySend =>
      obtain ⟨-, rfl⟩ := step
      split <;> rfl
  | sendMessage =>
      rw [show after = _ from step]
      split <;> rfl
  | createPeer => rcases step with ⟨_, _, _, _, rfl⟩ | ⟨_, rfl⟩ <;> rfl
  | outOfFuel => exact reply.elim
  | setContext =>
      rw [show after = _ from step]
      rfl
  | pingSignaling | pingSfu => rw [show after = _ from step]
  | _ => rw [step.2]

/-- A change of one connection that keeps what is in its queue keeps every queue. -/
theorem queued_setConnection {id : ConnectionId} {connection : Connection} {query : ConnectionId}
    {message : ServerMessage}
    (kept : message ∈ (world.connections id).queue → message ∈ connection.queue)
    (queued : message ∈ (world.connections query).queue) :
    message ∈ ((world.setConnection id connection).connections query).queue := by
  unfold setConnection
  by_cases own : query = id
  · subst own
    simp only [Function.update_self]
    exact kept queued
  · simp only [Function.update_of_ne own]
    exact queued

/-- A message in a queue stays there. -/
theorem exec_queue (step : World.exec op world reply after) {connection : ConnectionId}
    {message : ServerMessage} (queued : message ∈ (world.connections connection).queue) :
    message ∈ (after.connections connection).queue := by
  cases op with
  | peers | sessions =>
      obtain ⟨_, _, rfl⟩ := step
      exact queued
  | redis =>
      obtain ⟨_, _, -, -, rfl⟩ := step
      exact queued
  | trySend sender =>
      obtain ⟨-, rfl⟩ := step
      split
      · exact queued_setConnection (List.mem_append_left _) queued
      · exact queued
  | sendMessage =>
      rw [show after = _ from step]
      split
      · exact queued_setConnection id queued
      · exact queued
  | createPeer =>
      rcases step with ⟨_, _, _, _, rfl⟩ | ⟨_, rfl⟩
      · exact queued
      · exact queued
  | outOfFuel => exact reply.elim
  | setContext =>
      rw [show after = _ from step]
      exact queued_setConnection id queued
  | pingSignaling | pingSfu =>
      rw [show after = _ from step]
      exact queued
  | _ =>
      rw [step.2]
      exact queued

end World

end Callifornia
