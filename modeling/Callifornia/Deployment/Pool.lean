import Callifornia.Deployment.Rooms
import Callifornia.Replay
import Callifornia.Signaling.TokenFormat

/-! # The pool of SFUs and the bindings of the rooms

However the tasks of the deployment interleave, fail and stop: the load of an SFU stays within
its configured capacity, an SFU that no probe reaches never gets a room, and the binding of a
room is written once, never changed, and never comes back after it is gone.
-/

namespace Callifornia.Deployment

open Concurrency Concurrency.Program Concurrency.System FiniteMap Store Signaling

/-! ## What is kept -/

/-- The record is the one of the configured instance, and at a dead address it is not alive. -/
structure Setup.Knows (setup : Setup) (instanceId : InstanceId) (record : SfuInstance) : Prop where
  named : record.instanceId = instanceId
  listed : setup.inventory instanceId = some (record.grpcAddr, record.maxRooms)
  down : record.grpcAddr ∈ setup.dead → record.alive = false

/-- The rooms an instance may have; none if it is not configured. -/
def Setup.capacity (setup : Setup) (instanceId : InstanceId) : ℕ :=
  ((setup.inventory instanceId).map Prod.snd).getD 0

/-- The load of the instance is within its capacity. -/
def Setup.Fits (setup : Setup) (instanceId : InstanceId) (score : ℤ) : Prop :=
  0 ≤ score ∧ score ≤ setup.capacity instanceId

/-- The binding is written by a node for a configured instance, not at a dead address. -/
def Setup.Binds (setup : Setup) (hash : Hash) : Prop :=
  ∃ config ∈ setup.nodes, ∃ record, setup.Knows record.instanceId record ∧
    record.grpcAddr ∉ setup.dead ∧ hash = Redis.newBinding config.signalingPublicHost
      (toString config.signalingPublicPort.toNat) config.publicNodeId record

/-- The records, loads and bindings of the store are those of the configured instances. -/
structure Setup.Describes (setup : Setup) (store : Redis) : Prop where
  records : ∀ instanceId record, store.instances.lookup instanceId = some record →
    setup.Knows instanceId record
  loads : ∀ instanceId score, (store.scores .roomLoad).lookup instanceId = some score →
    setup.Fits instanceId score
  bindings : ∀ roomId hash, store.bindings.lookup roomId = some hash → setup.Binds hash

/-- The invariant of the deployment. -/
structure Tidy (setup : Setup) (world : World) (tasks : Multiset Knowledge) : Prop
    extends Ledger world tasks where
  store : setup.Describes world.redis

/-- What a reply is relied on for. -/
def Setup.Relies (setup : Setup) : (op : Op) → op.Reply → Prop
  | .redis (.zscore .roomLoad instanceId), .ok (some score) => setup.Fits instanceId score
  | .redis (.hgetInstance instanceId), .ok (some record) => setup.Knows instanceId record
  | .redis .hgetallInstances, .ok records =>
      ∀ record ∈ records, setup.Knows record.instanceId record
  | .pingSfu sfuAddr, true => sfuAddr ∉ setup.dead
  | _, _ => True

/-- What a task may do when it knows this. -/
def Setup.Allows (setup : Setup) (known : Knowledge) : Op → Prop
  | .redis (.assignRoomToSfu roomId ownerHost ownerPort ownerId _ _) => known.drawn = some roomId ∧
      ∃ config ∈ setup.nodes, ownerHost = config.signalingPublicHost ∧
        ownerPort = toString config.signalingPublicPort.toNat ∧ ownerId = config.publicNodeId
  | .redis (.zadd .roomLoad instanceId score) => setup.Fits instanceId score
  | .redis (.hsetInstance instanceId record) => setup.Knows instanceId record
  | .createPeer sfuAddr roomId nickname node =>
      known.Directs (.createPeer sfuAddr roomId nickname node)
  | .deletePeer sfuAddr roomId nickname reason =>
      known.Directs (.deletePeer sfuAddr roomId nickname reason)
  | .handleSdp sfuAddr roomId nickname sdp sdpType =>
      known.Directs (.handleSdp sfuAddr roomId nickname sdp sdpType)
  | .addIceCandidate sfuAddr roomId nickname candidate sdpMid =>
      known.Directs (.addIceCandidate sfuAddr roomId nickname candidate sdpMid)
  | .redis (.sadd roomId nickname) => known.Directs (.redis (.sadd roomId nickname))
  | .peers node (.register roomId nickname entry) =>
      known.Directs (.peers node (.register roomId nickname entry))
  | op => Harmless op

def contract (setup : Setup) : Contract (system setup) where
  rely := setup.Relies
  allowed := setup.Allows
  inv := Tidy setup

variable {setup : Setup} {world after : World} {known : Knowledge} {others : Multiset Knowledge}
  {op : Op} {instanceId : InstanceId} {record : SfuInstance} {roomId : RoomId}

/-- A harmless step is allowed whatever the task knows. -/
theorem allows_of_harmless (harmless : Harmless op) (known : Knowledge) :
    setup.Allows known op := by
  cases op with
  | redis command =>
      cases command with
      | assignRoomToSfu | hsetInstance | sadd => exact harmless.elim
      | zadd set =>
          cases set with
          | roomLoad => exact harmless.elim
          | _ => exact harmless
      | _ => exact harmless
  | peers node command =>
      cases command with
      | register => exact harmless.elim
      | _ => exact harmless
  | createPeer | deletePeer | handleSdp | addIceCandidate => exact harmless.elim
  | _ => exact harmless

/-- A step that a known placement directs is allowed. -/
theorem allows_of_directs (directs : known.Directs op) : setup.Allows known op := by
  cases op with
  | redis command =>
      cases command with
      | sadd => exact directs
      | _ => exact directs.elim
  | peers node command =>
      cases command with
      | register => exact directs
      | _ => exact directs.elim
  | createPeer | deletePeer | handleSdp | addIceCandidate => exact directs
  | _ => exact directs.elim

/-- A task binds the room whose id it has drawn, and enters rooms that it knows. -/
theorem traces_of_allows (allows : setup.Allows known op) : known.Traces op := by
  cases op with
  | redis command =>
      cases command with
      | assignRoomToSfu => exact allows.1
      | sadd => exact allows
      | hset key =>
          cases key with
          | binding => exact allows.elim
          | session => exact trivial
      | _ => exact trivial
  | peers node command =>
      cases command with
      | register => exact allows
      | _ => exact trivial
  | _ => exact trivial

/-- A load that fits still fits when it is decremented. -/
theorem fits_decremented {current : Option ℤ}
    (fits : ∀ score ∈ current, setup.Fits instanceId score) :
    setup.Fits instanceId (decremented current) := by
  unfold Setup.Fits decremented
  cases current with
  | none => exact ⟨le_refl _, by simp⟩
  | some score =>
      have bounds := fits score rfl
      unfold Setup.Fits at bounds
      simp only [Option.getD_some]
      split <;> omega

/-! ## The tasks meet the contract -/

/-- The record that is seeded for a configured SFU is as configured. -/
theorem knows_seedRecord {candidate : Supervisor.SfuCandidate} {now : ℤ}
    {existing : Option SfuInstance}
    (configured : setup.inventory candidate.instanceId =
      some (candidate.grpcAddr, candidate.maxRooms))
    (known : ∀ record ∈ existing, setup.Knows candidate.instanceId record) :
    setup.Knows candidate.instanceId (Supervisor.seedRecord now candidate existing) := by
  cases existing with
  | none => exact ⟨rfl, configured, fun _ => rfl⟩
  | some record =>
      obtain ⟨named, listed, down⟩ := known record rfl
      have same : record.grpcAddr = candidate.grpcAddr :=
        (Prod.mk.inj (Option.some.inj (listed.symm.trans configured))).1
      refine ⟨named, configured, fun dead => down ?_⟩
      rw [same]
      exact dead

section Parts

variable {keeps : Knowledge → Prop} (stable : Contract.Stable (system setup) keeps)

include stable

/-- A record that is read is one of the inventory. -/
theorem admits_hgetInstance {ε α : Type} {onFailure : RedisFailure → ε}
    {rest : Option SfuInstance → ExceptT ε Call α}
    (continues : ∀ payload : Option SfuInstance,
      (∀ record ∈ payload, setup.Knows instanceId record) →
      (contract setup).Admits keeps (rest payload).run) :
    (contract setup).Admits keeps
      (redisCommand onFailure (.hgetInstance instanceId) >>= rest).run := by
  intro known holds
  refine ⟨trivial, fun reply relied => ?_⟩
  have kept := stable known (.redis (.hgetInstance instanceId)) reply holds
  cases reply with
  | error failure => exact kept
  | ok payload =>
      refine continues payload (fun record found => ?_) _ kept
      obtain rfl : payload = some record := found
      exact relied

/-- A record of the inventory may be written. -/
theorem admits_hsetInstance {ε : Type} {onFailure : RedisFailure → ε}
    (known : setup.Knows instanceId record) :
    (contract setup).Admits keeps (redisCommand onFailure (.hsetInstance instanceId record)).run :=
  Contract.Admits.bind (Contract.Admits.perform stable fun _ _ => known) fun _ =>
    Contract.Admits.ret _

/-- Marking an instance as idle or busy keeps its address and capacity. -/
theorem admits_updateSfuIdleSince {time : ℤ} :
    (contract setup).Admits keeps (updateSfuIdleSince instanceId time).run := by
  refine admits_hgetInstance stable fun payload known => ?_
  cases payload with
  | none => exact Contract.Admits.ret _
  | some record =>
      obtain ⟨named, listed, down⟩ := known record rfl
      exact admits_hsetInstance stable ⟨named, listed, down⟩

/-- So does the supervisor's. -/
theorem admits_updateIdleSince {time : ℤ} :
    (contract setup).Admits keeps (Supervisor.updateIdleSince instanceId time).run := by
  refine admits_hgetInstance stable fun payload known => ?_
  cases payload with
  | none => exact Contract.Admits.ret _
  | some record =>
      obtain ⟨rfl, listed, down⟩ := known record rfl
      exact admits_hsetInstance stable ⟨rfl, listed, down⟩

/-- The decrement of a load, whatever follows it. -/
theorem admits_decrement {ε α : Type} {onFailure : RedisFailure → ε}
    {rest : Option ℤ → Unit → ExceptT ε Call α}
    (continues : ∀ current, (contract setup).Admits keeps (rest current ()).run) :
    (contract setup).Admits keeps (do
      let current ← redisCommand onFailure (.zscore .roomLoad instanceId)
      let done ← redisCommand onFailure (.zadd .roomLoad instanceId (decremented current))
      rest current done : ExceptT ε Call α).run := by
  intro known holds
  refine ⟨trivial, fun reply relied => ?_⟩
  have kept := stable known (.redis (.zscore .roomLoad instanceId)) reply holds
  cases reply with
  | error failure => exact kept
  | ok current =>
      refine ⟨fits_decremented fun score found => ?_, fun written _ => ?_⟩
      · obtain rfl : current = some score := found
        exact relied
      · have kept := stable _ (.redis (.zadd .roomLoad instanceId (decremented current))) written
          kept
        cases written with
        | error failure => exact kept
        | ok done => exact continues current _ kept

/-- Who has read a score in bounds writes one in bounds. -/
theorem admits_decrementSfuRoomLoad :
    (contract setup).Admits keeps (decrementSfuRoomLoad instanceId).run := by
  refine admits_decrement stable fun current => ?_
  split
  · exact (Contract.Admits.perform stable fun _ _ => trivial).lift.except_bind fun now =>
      admits_updateSfuIdleSince stable
  · exact Contract.Admits.ret _

/-- The supervisor's release does the same. -/
theorem admits_supervisor_decrementSfuRoomLoad :
    (contract setup).Admits keeps (Supervisor.decrementSfuRoomLoad instanceId).run := by
  refine admits_decrement stable fun current => ?_
  split
  · exact (Contract.Admits.perform stable fun _ _ => trivial).lift.except_bind fun now =>
      admits_updateIdleSince stable
  · exact Contract.Admits.ret _

/-- The contract tolerates all that concerns no SFU. -/
theorem tolerates_contract : Tolerates (contract setup) keeps where
  stable := stable
  steps _ harmless known _ := allows_of_harmless harmless known
  directs _ _ _ := allows_of_directs
  slots stable _ := admits_decrementSfuRoomLoad stable
  supervisorSlots stable _ := admits_supervisor_decrementSfuRoomLoad stable

omit stable in
/-- A configured node may bind a room it has drawn. -/
theorem admits_binding {config : Signaling.Config} (configured : config ∈ setup.nodes) :
    AdmitsBinding (contract setup) keeps config :=
  fun _ _ _ _ => ⟨rfl, config, configured, rfl, rfl, rfl⟩

/-- An instance is marked as alive only after its address has answered. -/
theorem admits_updateSfuHealth {alive : Bool} {now : ℤ} {sfuAddr : Address}
    (listed : ∃ maxRooms, setup.inventory instanceId = some (sfuAddr, maxRooms))
    (answered : alive = true → sfuAddr ∉ setup.dead) :
    (contract setup).Admits keeps (Supervisor.updateSfuHealth instanceId alive now).run := by
  refine admits_hgetInstance stable fun payload known => ?_
  cases payload with
  | none => exact Contract.Admits.ret _
  | some record =>
      obtain ⟨rfl, own, down⟩ := known record rfl
      obtain ⟨maxRooms, listed⟩ := listed
      have address : record.grpcAddr = sfuAddr :=
        (Prod.mk.inj (Option.some.inj (own.symm.trans listed))).1
      refine admits_hsetInstance stable ?_
      cases alive with
      | true => exact ⟨rfl, own, fun dead => absurd (address ▸ dead) (answered rfl)⟩
      | false => exact ⟨rfl, own, fun _ => rfl⟩

/-- A probe writes what it has read of a record, alive only after an answer. -/
theorem admits_sfuProbeTick {config : Supervisor.Config} :
    (contract setup).Admits keeps (Supervisor.sfuProbeTick config) := by
  intro known holds
  refine ⟨trivial, fun reply relied => ?_⟩
  have kept := stable known (.redis .hgetallInstances) reply holds
  cases reply with
  | error failure => exact kept
  | ok records =>
      refine ⟨trivial, fun now _ => ?_⟩
      refine Contract.Admits.forM (fun record member known holds => ?_) _
        (stable _ .unixNow now kept)
      have listed : setup.Knows record.instanceId record := relied record member
      refine ⟨trivial, fun alive answered => ?_⟩
      have kept := stable known (.pingSfu record.grpcAddr) alive holds
      change (contract setup).Meets _ _
        ((Supervisor.updateSfuHealth record.instanceId alive now).run >>= _)
      refine Contract.Meets.bind
        ((admits_updateSfuHealth stable ⟨_, listed.listed⟩ ?_ _ kept).mono ?_)
      · intro up
        subst up
        exact answered
      · intro last updated up
        cases updated with
        | error failure => exact up
        | ok =>
            cases alive with
            | true => exact up
            | false => exact (tolerates_contract stable).handleDeadSfu last up

/-- Seeding writes the configured addresses and capacities. -/
theorem admits_seedSfuInventory {inventory : List Supervisor.SfuCandidate}
    (configured : ∀ candidate ∈ inventory, setup.inventory candidate.instanceId =
      some (candidate.grpcAddr, candidate.maxRooms)) :
    (contract setup).Admits keeps (Supervisor.seedSfuInventory inventory).run := by
  have tolerates := tolerates_contract stable
  refine (tolerates.step (by trivial)).lift.except_bind fun now => ?_
  refine Contract.Admits.except_forM fun candidate member => ?_
  refine admits_hgetInstance stable fun existing known => ?_
  have seeded := @knows_seedRecord setup candidate now existing (configured candidate member) known
  have named := seeded.named
  refine Contract.Admits.except_bind
    (admits_hsetInstance stable (by rw [← named] at seeded; exact seeded)) fun _ => ?_
  refine (tolerates.redisCommand (by trivial)).except_bind fun existingLoad => ?_
  cases existingLoad with
  | some score => exact Contract.Admits.ret _
  | none =>
      have fits : setup.Fits (Supervisor.seedRecord now candidate existing).instanceId 0 :=
        ⟨le_refl _, Int.natCast_nonneg _⟩
      exact Contract.Admits.bind (Contract.Admits.perform stable fun _ _ => fits) fun _ =>
        Contract.Admits.ret _

end Parts

/-- Every task of the deployment meets the contract. -/
theorem admits_task {task : Task} (runs : setup.Runs task) :
    (contract setup).Admits (fun _ => True) task.program := by
  have stable : Contract.Stable (system setup) fun _ => True := fun _ _ _ => id
  have tolerates := tolerates_contract stable
  cases task with
  | auth => exact tolerates.auth.mapConst
  | create => exact tolerates.create.mapConst
  | join => exact tolerates.join.mapConst
  | logout => exact tolerates.connectorLogout.mapConst
  | sessionRenew => exact tolerates.sessionRenew.mapConst
  | connection codec state client jwt events =>
      exact tolerates.handleWs (admits_binding runs) events
  | renewLease =>
      exact (tolerates.only (redisCommand_drop_only (by trivial))).mapConst
  | purge => exact tolerates.runPurge
  | sfuEvent state event => exact tolerates.handleSfuEvent event
  | closeRooms => exact tolerates.closeRoomsDueToSfuAddr
  | seed inventory => exact logged_admits (admits_seedSfuInventory stable runs)
  | signalingProbe => exact tolerates.signalingProbeTick
  | sfuProbe => exact admits_sfuProbeTick stable
  | janitor => exact logged_admits tolerates.runJanitorIteration

/-! ## The contract is sound -/

/-- A step that writes no record keeps them. -/
theorem exec_instances (effect : World.exec op world reply after) (spares : Spares op) :
    after.redis.instances = world.redis.instances := by
  cases op with
  | redis command =>
      obtain ⟨value, redis, effect, -, rfl⟩ := effect
      cases command with
      | assignRoomToSfu => exact spares.elim
      | hsetInstance => exact spares.elim
      | setNx => rcases Redis.exec_setNx effect with rfl | rfl <;> rfl
      | compareAndDel => rcases Redis.exec_compareAndDel effect with rfl | rfl <;> rfl
      | hset key =>
          obtain rfl : redis = _ := effect
          cases key <;> rfl
      | del key =>
          obtain ⟨-, rfl⟩ := effect
          cases key <;> rfl
      | ping | sadd | zadd | zincr | zrem | zremrangeByScore =>
          obtain rfl : redis = _ := effect
          rfl
      | _ =>
          obtain ⟨-, rfl⟩ := effect
          rfl
  | _ => rw [World.exec_redis effect id]

/-- A step that spares the pool writes no load. -/
theorem not_writesLoad (spares : Spares op) :
    ¬ op.IsRedis (Command.WritesScores .roomLoad) := by
  cases op with
  | redis command =>
      cases command with
      | zadd set | zincr set | zrem set | zremrangeByScore set =>
          cases set with
          | roomLoad => exact spares.elim
          | instanceLoad | signalingNodes => exact fun same => by cases same
      | assignRoomToSfu => exact spares.elim
      | _ => exact id
  | _ => exact id

namespace Setup.Describes

variable {store store' : Redis}

/-- Bindings may be lost. -/
theorem of_kept (describes : setup.Describes store) (instances : store'.instances = store.instances)
    (loads : store'.scores .roomLoad = store.scores .roomLoad)
    (bindings : ∀ roomId hash, store'.bindings.lookup roomId = some hash →
      store.bindings.lookup roomId = some hash) : setup.Describes store' where
  records := by rw [instances]; exact describes.records
  loads := by rw [loads]; exact describes.loads
  bindings roomId hash found := describes.bindings roomId hash (bindings roomId hash found)

/-- The load of an SFU is set to what fits. -/
theorem setLoad {score : ℤ} (describes : setup.Describes store)
    (fits : setup.Fits instanceId score) :
    setup.Describes (store.zadd .roomLoad instanceId score) where
  records := describes.records
  loads other found := by
    intro stored
    change ((Function.update store.scores .roomLoad
      ((store.scores .roomLoad).insert instanceId score)) .roomLoad).lookup other =
        some found at stored
    rw [Function.update_self, lookup_insert_if] at stored
    split at stored
    · rename_i same
      obtain rfl := Option.some.inj stored
      exact same ▸ fits
    · exact describes.loads other found stored
  bindings := describes.bindings

/-- The record of an SFU is replaced. -/
theorem setRecord (describes : setup.Describes store) (known : setup.Knows instanceId record) :
    setup.Describes { store with instances := store.instances.insert instanceId record } where
  records other found := by
    intro stored
    change (store.instances.insert instanceId record).lookup other = some found at stored
    rw [lookup_insert_if] at stored
    split at stored
    · rename_i same
      obtain rfl := Option.some.inj stored
      exact same ▸ known
    · exact describes.records other found stored
  loads := describes.loads
  bindings := describes.bindings

/-- A room is bound to an eligible instance. -/
theorem assign {config : Signaling.Config} {clock staleAfter : ℤ} {best : SfuInstance}
    (configured : config ∈ setup.nodes) (describes : setup.Describes store)
    (stored : store.instances.lookup instanceId = some best)
    (eligible : store.Eligible clock staleAfter best) :
    setup.Describes (store.assign roomId config.signalingPublicHost
      (toString config.signalingPublicPort.toNat) config.publicNodeId best) := by
  obtain ⟨rfl, listed, down⟩ := describes.records instanceId best stored
  obtain ⟨alive, -, -, below⟩ := eligible
  have up : best.grpcAddr ∉ setup.dead := fun dead =>
    absurd (alive.symm.trans (down dead)) Bool.true_eq_false.mp
  have fits : setup.Fits best.instanceId (store.score .roomLoad best.instanceId + 1) := by
    have capacity : setup.capacity best.instanceId = best.maxRooms := by
      rw [Setup.capacity, listed]
      rfl
    refine ⟨?_, by rw [capacity]; omega⟩
    cases found : (store.scores .roomLoad).lookup best.instanceId with
    | none =>
        rw [Redis.score, found]
        decide
    | some score =>
        have bounds := (describes.loads best.instanceId score found).1
        rw [Redis.score, found, Option.getD_some]
        omega
  have counted := (describes.setLoad fits).setRecord
    (⟨rfl, listed, down⟩ : setup.Knows best.instanceId { best with idleSinceUnix := 0 })
  refine ⟨counted.records, counted.loads, fun other hash found => ?_⟩
  rw [show (store.assign roomId _ _ _ best).bindings.lookup other = _ from
    lookup_insert_if _ _ _ _] at found
  split at found
  · exact ⟨config, configured, best, ⟨rfl, listed, down⟩, up, (Option.some.inj found).symm⟩
  · exact describes.bindings other hash found

end Setup.Describes

/-- The script binds an unbound room to an eligible instance, or changes nothing. -/
theorem exec_assigned {ownerHost ownerPort ownerId : String} {clock staleAfter : ℤ}
    {answer : Except RedisFailure (List String)}
    (effect : World.exec (.redis (.assignRoomToSfu roomId ownerHost ownerPort ownerId clock
      staleAfter)) world answer after) :
    ((answer = .ok [] ∨ answer = .ok ["__ROOM_EXISTS__", ""]) ∧ after = world) ∨
      ∃ instanceId best, world.redis.instances.lookup instanceId = some best ∧
        world.redis.Eligible clock staleAfter best ∧
        answer = .ok [best.instanceId, best.grpcAddr] ∧ after = { world with
          redis := world.redis.assign roomId ownerHost ownerPort ownerId best } := by
  obtain ⟨value, redis, ⟨records, lists, outcome⟩, rfl, rfl⟩ := effect
  unfold Redis.assignRoomToSfu at outcome
  cases chosen : world.redis.bestInstance clock staleAfter records with
  | none =>
      rw [chosen] at outcome
      obtain ⟨rfl, rfl⟩ := Prod.mk.inj outcome
      exact .inl ⟨.inl rfl, rfl⟩
  | some best =>
      have eligible := (Assignment.foldl_betterInstance_least chosen).1.resolve_right
        (Option.some_ne_none best).symm
      obtain ⟨instanceId, stored⟩ := lists.mem_iff.mp (world.redis.bestInstance_mem chosen)
      rw [chosen] at outcome
      cases bound : world.redis.bindings.lookup roomId with
      | none =>
          simp only [bound, Option.isSome_none, Bool.false_eq_true, ↓reduceIte] at outcome
          obtain ⟨rfl, rfl⟩ := Prod.mk.inj outcome
          exact .inr ⟨instanceId, best, stored, eligible, rfl, rfl⟩
      | some hash =>
          simp only [bound, Option.isSome_some, ↓reduceIte] at outcome
          obtain ⟨rfl, rfl⟩ := Prod.mk.inj outcome
          exact .inl ⟨.inr rfl, rfl⟩

/-- A step that writes no binding binds no room. -/
theorem not_binds_of_spares (spares : Spares op) : ¬ Binds roomId op := by
  cases op with
  | redis command =>
      cases command with
      | assignRoomToSfu => exact spares.elim
      | hset key =>
          cases key with
          | binding => exact spares.elim
          | session => exact id
      | _ => exact id
  | _ => exact id

/-- What takes effect keeps to the configuration, whatever it replies. -/
theorem Setup.Describes.effect (describes : setup.Describes world.redis)
    (allows : setup.Allows known op) {answer : op.Reply}
    (effect : World.exec op world answer after) : setup.Describes after.redis := by
  have spared (spares : Spares op) : setup.Describes after.redis := by
    refine describes.of_kept (exec_instances effect spares)
      ((World.exec_keepsRedis effect).scores .roomLoad (not_writesLoad spares)) ?_
    intro roomId hash found
    rcases binding_kept effect (not_binds_of_spares spares) with same | gone
    · exact same.symm.trans found
    · cases gone.symm.trans found
  cases op with
  | redis command =>
      cases command with
      | assignRoomToSfu bound =>
          obtain ⟨-, config, configured, rfl, rfl, rfl⟩ := allows
          rcases exec_assigned effect with ⟨-, rfl⟩ | ⟨instanceId, best, stored, eligible, -, rfl⟩
          · exact describes
          · exact describes.assign configured stored eligible
      | hsetInstance =>
          obtain ⟨_, _, rfl, -, rfl⟩ := effect
          exact describes.setRecord allows
      | zadd set =>
          cases set with
          | roomLoad =>
              obtain ⟨_, _, rfl, -, rfl⟩ := effect
              exact describes.setLoad allows
          | instanceLoad | signalingNodes => exact spared trivial
      | sadd => exact spared trivial
      | _ => exact spared (spares_of_harmless allows)
  | _ => exact spared trivial

/-- A reply that is no failure is one to rely on. -/
theorem relies_of_exec (describes : setup.Describes world.redis) {reply : op.Reply}
    (effect : World.exec op world reply after) (possible : setup.Possible op reply) :
    setup.Relies op reply := by
  cases op with
  | redis command =>
      obtain ⟨value, redis, effect, rfl, -⟩ := effect
      cases command with
      | zscore set instanceId =>
          cases set with
          | roomLoad =>
              obtain ⟨found, -⟩ := effect
              cases value with
              | none => trivial
              | some score => exact describes.loads instanceId score found.symm
          | _ => cases value <;> trivial
      | hgetInstance instanceId =>
          obtain ⟨found, -⟩ := effect
          cases value with
          | none => trivial
          | some record => exact describes.records instanceId record found.symm
      | hgetallInstances =>
          obtain ⟨lists, -⟩ := effect
          intro record member
          obtain ⟨instanceId, stored⟩ := lists.mem_iff.mp member
          obtain ⟨rfl, listed, down⟩ := describes.records instanceId record stored
          exact ⟨rfl, listed, down⟩
      | _ => trivial
  | pingSfu sfuAddr =>
      cases reply with
      | false => trivial
      | true => exact possible rfl
  | _ => trivial

/-- The reply to a call that failed tells nothing. -/
theorem relies_of_fails {reply : op.Reply} (fails : Fails op reply) : setup.Relies op reply := by
  cases op with
  | redis command =>
      cases reply with
      | ok value => exact fails.elim
      | error failure =>
          cases command with
          | zscore set => cases set <;> trivial
          | _ => trivial
  | pingSfu => exact fails.elim
  | _ => trivial

/-- Every allowed step keeps the invariant. -/
theorem sound_contract : (contract setup).Sound := by
  intro world known others op reply after tidy allows step
  obtain ⟨steps, possible⟩ := step
  have kept := Ledger.step tidy.toLedger (traces_of_allows allows) steps
  cases steps with
  | succeeds effect =>
      exact ⟨relies_of_exec tidy.store effect possible, kept, tidy.store.effect allows effect⟩
  | refused fails => exact ⟨relies_of_fails fails, kept, tidy.store⟩
  | unanswered fails effect =>
      exact ⟨relies_of_fails fails, kept, tidy.store.effect allows effect⟩

/-- Time, restarts and SFUs leave the pool and the bindings alone. -/
theorem changes_kept (changed : Changes world after) :
    after.redis.instances = world.redis.instances ∧
      after.redis.scores = world.redis.scores ∧ after.redis.bindings = world.redis.bindings := by
  cases changed <;> exact ⟨rfl, rfl, rfl⟩

/-- Every task of the deployment keeps to the contract. -/
theorem governs_contract : (contract setup).Governs where
  sound := sound_contract
  start world others phase program after started tidy := by
    obtain ⟨task, runs, rfl, rfl, rfl⟩ := started
    refine ⟨⟨tidy.toLedger.enter task, ?_⟩, (admits_task runs _ trivial).mono fun _ _ => id⟩
    rw [(opened_kept world task).1]
    exact tidy.store
  finish _ _ _ _ tidy := ⟨tidy.toLedger.leave, tidy.store⟩
  discard _ _ _ _ tidy := ⟨tidy.toLedger.leave, tidy.store⟩
  environment world others after changed tidy := by
    obtain ⟨instances, scores, bindings⟩ := changes_kept changed
    refine ⟨tidy.toLedger.changed changed, tidy.store.of_kept instances (congrFun scores _) ?_⟩
    rw [bindings]
    exact fun _ _ => id

/-! ## Reachable states -/

/-- Nobody has used the deployment yet. -/
def launched (setup : Setup) : (system setup).Pool := ⟨World.fresh, []⟩

/-- In a fresh world nothing is configured wrongly. -/
theorem tidy_fresh : Tidy setup World.fresh 0 where
  toLedger := ledger_fresh
  store := by
    constructor <;>
    · intro _ _ found
      cases found

variable {pool pool' : (system setup).Pool}

/-- The invariant holds in every state that is reached. -/
theorem holds_of_reaches (run : Reaches unguarded (launched setup) pool) :
    (contract setup).Holds pool :=
  (Contract.Holds.of_quiescent tidy_fresh).reaches governs_contract run

/-- **The recorded load stays within capacity**: however the tasks of the deployment interleave
and fail, the score of every SFU in `sfu:room_load` lies between zero and its configured capacity,
and its record has the configured address and capacity. An SFU may have more rooms than its score
says: a release writes one less than it has read, also when a room was assigned in between. -/
theorem load_within_capacity (run : Reaches unguarded (launched setup) pool) :
    (∀ instanceId, 0 ≤ pool.state.redis.score .roomLoad instanceId ∧
      pool.state.redis.score .roomLoad instanceId ≤ setup.capacity instanceId) ∧
    ∀ instanceId record, pool.state.redis.instances.lookup instanceId = some record →
      record.instanceId = instanceId ∧
        setup.inventory instanceId = some (record.grpcAddr, record.maxRooms) := by
  obtain ⟨tidy, -⟩ := holds_of_reaches run
  constructor
  · intro instanceId
    cases found : (pool.state.redis.scores .roomLoad).lookup instanceId with
    | none =>
        rw [Redis.score, found, Option.getD_none]
        exact ⟨le_refl _, Int.natCast_nonneg _⟩
    | some score =>
        rw [Redis.score, found, Option.getD_some]
        exact tidy.store.loads instanceId score found
  · intro instanceId record stored
    obtain ⟨named, listed, -⟩ := tidy.store.records instanceId record stored
    exact ⟨named, listed⟩

/-- **A dead SFU gets no room**: while every supervisor seeds the one inventory, at an address that
no probe reaches no instance is ever taken for alive and no binding ever points to one. -/
theorem dead_unused (run : Reaches unguarded (launched setup) pool) {sfuAddr : Address}
    (dead : sfuAddr ∈ setup.dead) :
    (∀ instanceId record, pool.state.redis.instances.lookup instanceId = some record →
      record.grpcAddr = sfuAddr → record.alive = false) ∧
    ∀ roomId hash, pool.state.redis.bindings.lookup roomId = some hash →
      hash.get "sfu_grpc_addr" ≠ some sfuAddr := by
  obtain ⟨tidy, -⟩ := holds_of_reaches run
  constructor
  · rintro instanceId record stored rfl
    exact (tidy.store.records instanceId record stored).down dead
  · intro roomId hash bound named
    obtain ⟨config, -, record, -, up, rfl⟩ := tidy.store.bindings roomId hash bound
    rw [Redis.get_newBinding, if_pos rfl] at named
    exact up (Option.some.inj named ▸ dead)

/-! ## The life of a binding -/

/-- The id of the room is used up, and its binding is one of these. -/
structure Remains (roomId : RoomId) (values : Set (Option Hash)) (world : World)
    (tasks : Multiset Knowledge) : Prop extends Spent roomId world tasks where
  value : world.redis.bindings.lookup roomId ∈ values

/-- Whoever binds a room has drawn its id. -/
theorem drawn_of_binds (allows : setup.Allows known op) (binds : Binds roomId op) :
    known.drawn = some roomId := by
  cases op with
  | redis command =>
      cases command with
      | assignRoomToSfu bound =>
          obtain rfl : bound = roomId := binds
          exact allows.1
      | hset key =>
          cases key with
          | binding => exact allows.elim
          | session => exact binds.elim
      | _ => exact binds.elim
  | _ => exact binds.elim

/-- A room whose id is used up is not bound again. -/
theorem not_binds_of_spent (spent : Spent roomId world (known ::ₘ others))
    (allows : setup.Allows known op) : ¬ Binds roomId op :=
  fun binds => spent.undrawn known (Multiset.mem_cons_self _ _) (drawn_of_binds allows binds)

/-- The binding of a room whose id is used up may only disappear. -/
theorem keeps_remains {values : Set (Option Hash)} (absent : none ∈ values) :
    (contract setup).Keeps unguarded (Remains roomId values) where
  step world known others op reply after _ remains allows _ step := by
    obtain ⟨steps, -⟩ := step
    refine ⟨remains.toSpent.step steps, ?_⟩
    rcases steps.effect with rfl | ⟨answer, effect⟩
    · exact remains.value
    · rcases binding_kept effect (not_binds_of_spent remains.toSpent allows) with same | gone
      · exact same ▸ remains.value
      · exact gone ▸ absent
  start world others known program after started remains := by
    obtain ⟨task, -, rfl, -, rfl⟩ := started
    obtain ⟨redis, issued, -⟩ := opened_kept world task
    exact ⟨remains.toSpent.enter issued (drawn_initial task), by rw [redis]; exact remains.value⟩
  finish _ _ _ _ remains := ⟨remains.toSpent.leave, remains.value⟩
  discard _ _ _ _ remains := ⟨remains.toSpent.leave, remains.value⟩
  environment world others after changed remains := by
    obtain ⟨-, -, bindings⟩ := changes_kept changed
    exact ⟨remains.toSpent.changed changed, by rw [bindings]; exact remains.value⟩

/-- **The life of a binding**: it is written as a whole, under the configuration of a node that
serves connections and for a configured SFU; it never changes, and once it is gone the room is
never bound again. -/
theorem binding_final (run : Reaches unguarded (launched setup) pool)
    (later : Reaches unguarded pool pool') {hash : Hash}
    (bound : pool.state.redis.bindings.lookup roomId = some hash) :
    (∃ config ∈ setup.nodes, ∃ record : SfuInstance, hash = Redis.newBinding
      config.signalingPublicHost (toString config.signalingPublicPort.toNat) config.publicNodeId
        record ∧ setup.inventory record.instanceId = some (record.grpcAddr, record.maxRooms)) ∧
    (pool'.state.redis.bindings.lookup roomId = some hash ∨
      ∀ last, Reaches unguarded pool' last → last.state.redis.bindings.lookup roomId = none) := by
  have holds := holds_of_reaches run
  obtain ⟨config, configured, record, known, -, rfl⟩ := holds.1.store.bindings roomId _ bound
  refine ⟨⟨config, configured, record, rfl, known.listed⟩, ?_⟩
  have remains : Remains roomId {some _, none} pool.state (phases pool.threads) :=
    ⟨holds.1.spent roomId (.bound (Finmap.mem_of_lookup_eq_some bound)), .inl bound⟩
  have kept := holds.retains governs_contract
    (keeps_remains (Set.mem_insert_of_mem _ (Set.mem_singleton _))) remains later
  rcases kept.value with same | gone
  · exact .inl same
  · refine .inr fun last run => ?_
    have gone : Remains roomId {none} pool'.state (phases pool'.threads) := ⟨kept.toSpent, gone⟩
    exact ((holds.reaches governs_contract later).retains governs_contract
      (keeps_remains (Set.mem_singleton _)) gone run).value

/-! ## A run -/

/-- One SFU that answers, of two that are configured. -/
def twoSfus : Setup where
  inventory instanceId :=
    if instanceId = "sfu-1" then some ("http://127.0.0.1:50051", 1)
    else if instanceId = "sfu-2" then some ("http://127.0.0.1:50052", 1)
    else none
  nodes := {config | config = sampleNode.config}
  dead := {sfuAddr | sfuAddr = "http://127.0.0.1:50052"}

instance (op : Op) (reply : op.Reply) : Decidable (twoSfus.Possible op reply) :=
  match op, reply with
  | .pingSfu sfuAddr, reply =>
      inferInstanceAs (Decidable (reply = true → ¬ sfuAddr = "http://127.0.0.1:50052"))
  | .redis _, _ | .unixNow, _ | .newUuid, _ | .peers .., _ | .sessions .., _ | .trySend .., _
  | .sendMessage .., _ | .getContext _, _ | .setContext .., _ | .createPeer .., _
  | .deletePeer .., _ | .handleSdp .., _ | .addIceCandidate .., _ | .closeRoomsBySfu _, _
  | .pingSignaling _, _ | .outOfFuel, _ => .isTrue trivial

/-- One outcome of a step that does not fail. -/
def sampler : (system twoSfus).Sampler Hint where
  sample hint op world := (World.sample hint op world).filter fun outcome =>
    twoSfus.Possible op outcome.1
  sound {hint op before reply after} sampled := by
    obtain ⟨found, possible⟩ := Option.filter_eq_some_iff.mp sampled
    have possible : twoSfus.Possible op reply := of_decide_eq_true possible
    exact ⟨.succeeds (World.sample_sound found), possible⟩

def sessionId : SessionId := "1b4e28ba-2fa1-41d2-883f-0016d3cca427"

/-- A token of the connector for the session. -/
def token : String :=
  TokenFormat.openJwt.encode "dev-connector-token-secret"
    { jti := "6fa459ea-ee8a-4ca4-894e-db77e160355e", sessionId, nickname := "alice"
      signalingInstanceId := "127.0.0.1:8080", intent := "create", roomId := none, iat := 0
      exp := 120 }

def attachText : String := "\x7b\"type\":\"attach\",\"token\":\"" ++ token ++ "\"\x7d"

def createText : String :=
  "\x7b\"type\":\"create\",\"session_id\":\"" ++ sessionId ++ "\"\x7d"

/-- The client's messages are these two. -/
def codec : Codec where
  decode text :=
    if text = attachText then some (.attach token)
    else if text = createText then some (.create sessionId)
    else none
  isUuid text := text = sessionId

/-- The inventory is seeded, the SFUs are probed, a session starts, and its client creates a
room. -/
def tasks : List Task :=
  [.seed [⟨"sfu-1", "http://127.0.0.1:50051", 1⟩, ⟨"sfu-2", "http://127.0.0.1:50052", 1⟩],
    .sfuProbe { signalingAdminInstances := [], signalingStaleTimeoutSecs := 30, loopBound := 2 },
    .auth { sessionTtlSecs := 600 } "alice",
    .connection codec sampleNode 0 TokenFormat.openJwt
      [.incoming (.frame (.text attachText)), .incoming (.frame (.text createText))]]

def started : List (system twoSfus).Thread :=
  tasks.map fun task => ⟨.initial task, task.program⟩

def schedule : List (ℕ × Hint) :=
  turns 0 10 ++ [(0, { names := ["sfu-1", "sfu-2"] })] ++ turns 0 4 ++
    [(0, { succeeds := false })] ++ turns 0 4 ++ [(0, { names := [sessionId] })] ++ turns 0 17 ++
    [(0, { names := ["lock-1"] })] ++ turns 0 7 ++ [(0, { names := ["room-1"] })] ++ turns 0 1 ++
    [(0, { names := ["sfu-1", "sfu-2"] })] ++ turns 0 3 ++ [(0, { names := ["alice"] })] ++
    turns 0 8

/-- The tasks of the sample run start in a fresh world. -/
theorem tasks_may_start {task : Task} (chosen : task ∈ tasks) :
    twoSfus.Runs task ∧ opened World.fresh task = World.fresh := by
  simp only [tasks, List.mem_cons, List.not_mem_nil, or_false] at chosen
  rcases chosen with rfl | rfl | rfl | rfl
  · refine ⟨?_, rfl⟩
    unfold Setup.Runs
    decide
  · exact ⟨trivial, rfl⟩
  · exact ⟨trivial, rfl⟩
  · refine ⟨rfl, ?_⟩
    change World.fresh.setConnection 0 _ = World.fresh
    rw [World.setConnection]
    exact congrArg (fun connections => { World.fresh with connections })
      (Function.update_eq_self _ _)

/-- They may all be started. -/
theorem reaches_started : Reaches unguarded (launched twoSfus) ⟨World.fresh, started⟩ := by
  refine reaches_start fun thread member others => ?_
  obtain ⟨task, chosen, rfl⟩ := List.mem_map.mp member
  obtain ⟨runs, same⟩ := tasks_may_start chosen
  exact ⟨task, runs, rfl, rfl, same.symm⟩

/-- The room is created on the SFU that answers, which is full now, and its creator has entered. -/
theorem exists_created : ∃ pool : (system twoSfus).Pool, Reaches unguarded (launched twoSfus) pool ∧
    pool.state.redis.score .roomLoad "sfu-1" = 1 ∧
    pool.state.redis.bindings.lookup "room-1" = some (Redis.newBinding "127.0.0.1" "8080"
      "127.0.0.1:8080" ⟨"sfu-1", "http://127.0.0.1:50051", 1, true, "ready", 0, 0⟩) ∧
    ("http://127.0.0.1:50051", "room-1", "alice") ∈ pool.state.sfuPeers ∧
    ("room-1", "alice") ∈ (pool.state.nodes "127.0.0.1:8080").peers := by
  have replayed : (sampler.replay unguarded schedule ⟨World.fresh, started⟩).any (fun pool =>
      pool.state.redis.score .roomLoad "sfu-1" = 1 ∧
      pool.state.redis.bindings.lookup "room-1" = some (Redis.newBinding "127.0.0.1" "8080"
        "127.0.0.1:8080" ⟨"sfu-1", "http://127.0.0.1:50051", 1, true, "ready", 0, 0⟩) ∧
      ("http://127.0.0.1:50051", "room-1", "alice") ∈ pool.state.sfuPeers ∧
      ("room-1", "alice") ∈ (pool.state.nodes "127.0.0.1:8080").peers) = true := by
    decide +kernel
  obtain ⟨pool, run, passed⟩ := Sampler.exists_of_replay replayed
  exact ⟨pool, reaches_started.trans run, of_decide_eq_true passed⟩

/-- An SFU that has one room is full with it. -/
theorem load_within_capacity_full : ∃ pool : (system twoSfus).Pool,
    pool.state.redis.score .roomLoad "sfu-1" = 1 ∧
    (∀ instanceId, 0 ≤ pool.state.redis.score .roomLoad instanceId ∧
      pool.state.redis.score .roomLoad instanceId ≤ twoSfus.capacity instanceId) ∧
    ∀ instanceId record, pool.state.redis.instances.lookup instanceId = some record →
      record.instanceId = instanceId ∧
        twoSfus.inventory instanceId = some (record.grpcAddr, record.maxRooms) := by
  obtain ⟨pool, run, full, -⟩ := exists_created
  exact ⟨pool, full, load_within_capacity run⟩

/-- One of two SFUs is dead, and a room is created. -/
theorem dead_unused_created : ∃ pool : (system twoSfus).Pool,
    (∃ hash, pool.state.redis.bindings.lookup "room-1" = some hash) ∧
    (∀ instanceId record, pool.state.redis.instances.lookup instanceId = some record →
      record.grpcAddr = "http://127.0.0.1:50052" → record.alive = false) ∧
    ∀ roomId hash, pool.state.redis.bindings.lookup roomId = some hash →
      hash.get "sfu_grpc_addr" ≠ some "http://127.0.0.1:50052" := by
  obtain ⟨pool, run, -, bound, -⟩ := exists_created
  exact ⟨pool, ⟨_, bound⟩, dead_unused run rfl⟩

/-- The binding of that room is final. -/
theorem binding_final_created : ∃ (pool : (system twoSfus).Pool) (hash : Hash),
    (∃ config ∈ twoSfus.nodes, ∃ record : SfuInstance, hash = Redis.newBinding
      config.signalingPublicHost (toString config.signalingPublicPort.toNat) config.publicNodeId
        record ∧ twoSfus.inventory record.instanceId = some (record.grpcAddr, record.maxRooms)) ∧
    (pool.state.redis.bindings.lookup "room-1" = some hash ∨
      ∀ last, Reaches unguarded pool last →
        last.state.redis.bindings.lookup "room-1" = none) := by
  obtain ⟨pool, run, -, bound, -⟩ := exists_created
  exact ⟨pool, _, binding_final run .refl bound⟩

end Callifornia.Deployment
