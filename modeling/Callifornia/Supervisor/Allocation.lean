import Callifornia.Signaling.Assignment
import Callifornia.Supervisor.Storage

/-! # The two allocators

A room is assigned to an SFU by the script of the signaling nodes, or by the functions of the
control store: one lists the instances and chooses the first of the least loaded ones, the
other binds a room to the chosen instance. Both find an instance in the same stores, choose
equally loaded ones, and leave the same store once they choose the same one.
-/

namespace Callifornia.Supervisor

open Concurrency Concurrency.Program FiniteMap Store Signaling.Assignment

/-! ## The allocator of the control store -/

/-- The entries as a map; of two entries with the same key the later one counts. -/
def collect {Value : Type} (entries : List (String × Value)) : Map String Value :=
  entries.foldl (fun map entry => map.insert entry.1 entry.2) ∅

def loadSfuRoomLoads : StoreCall (Map InstanceId ℤ) := do
  let entries ← command (.zrangeWithScores .roomLoad)
  return collect entries

/-- The load of an instance; a missing one counts as zero. -/
def roomLoad (roomLoads : Map InstanceId ℤ) (record : SfuInstance) : ℤ :=
  (roomLoads.lookup record.instanceId).getD 0

def selectLeastLoadedInstance : StoreCall (Option SfuInstance) := do
  let instances ← listSfuInstances
  let roomLoads ← loadSfuRoomLoads
  let now ← unixNow
  return minBy (roomLoad roomLoads) (instances.filter fun record =>
    record.alive ∧ now - record.lastPingUnix ≤ 30 ∧ record.state = "ready" ∧
      roomLoad roomLoads record < record.maxRooms)

/-- The fields of the binding are written in one transaction. -/
def assignRoomToInstance (roomId : RoomId) (ownerId : NodeId) (ownerHost : String)
    (ownerPort : UInt16) (record : SfuInstance) : StoreCall Unit := do
  command (.hset (.binding roomId) "owner_host" ownerHost)
  command (.hset (.binding roomId) "owner_port" (toString ownerPort.toNat))
  command (.hset (.binding roomId) "signaling_owner_id" ownerId)
  command (.hset (.binding roomId) "room_state" "active")
  command (.hset (.binding roomId) "sfu_instance_id" record.instanceId)
  command (.hset (.binding roomId) "sfu_grpc_addr" record.grpcAddr)
  command (.zincr .roomLoad record.instanceId 1)
  updateIdleSince record.instanceId 0

namespace Allocation

/-! ## The loads -/

section Loads

variable {Value : Type} {entries : List (String × Value)} {key : String} {value : Value}

theorem lookup_foldl_insert {start : Map String Value}
    (distinct : (entries.map Prod.fst).Nodup) :
    (entries.foldl (fun map entry => map.insert entry.1 entry.2) start).lookup key = some value ↔
      (key, value) ∈ entries ∨ key ∉ entries.map Prod.fst ∧ start.lookup key = some value := by
  induction entries generalizing start with
  | nil => simp
  | cons entry entries ih =>
      obtain ⟨first, rest⟩ := List.nodup_cons.mp distinct
      rw [List.foldl_cons, ih rest, lookup_insert_if, List.mem_cons, List.map_cons, List.mem_cons]
      by_cases same : key = entry.1
      · have absent : (key, value) ∉ entries := fun member =>
          first (same ▸ List.mem_map_of_mem member)
        have unlisted : key ∉ entries.map Prod.fst := same ▸ first
        simp [same ▸ absent, same ▸ unlisted, same, Prod.ext_iff, eq_comm]
      · simp [same, Prod.ext_iff]

/-- Entries with distinct keys are the entries of the map. -/
theorem lookup_collect (distinct : (entries.map Prod.fst).Nodup) :
    (collect entries).lookup key = some value ↔ (key, value) ∈ entries := by
  refine (lookup_foldl_insert distinct).trans (or_iff_left ?_)
  rintro ⟨-, found⟩
  cases found

/-- A map is collected from its own entries, in any order. -/
theorem lookup_collect_entries {map : Map String Value}
    (lists : (entries : Multiset (String × Value)) = map.entries.map fun entry =>
      (entry.1, entry.2)) (key : String) : (collect entries).lookup key = map.lookup key := by
  have distinct : (entries.map Prod.fst).Nodup := by
    rw [← Multiset.coe_nodup, ← Multiset.map_coe, lists, Multiset.map_map]
    exact map.keys.nodup
  ext value
  rw [lookup_collect distinct, ← Multiset.mem_coe, lists, Multiset.mem_map, ← Option.mem_def,
    Finmap.mem_lookup_iff]
  constructor
  · rintro ⟨⟨query, found⟩, member, same⟩
    cases same
    exact member
  · exact fun member => ⟨⟨key, value⟩, member, rfl⟩

end Loads

/-! ## The choice -/

variable {store : Redis} {clock : ℤ} {records : List SfuInstance}

/-- The script's running minimum is the first least loaded eligible record. -/
theorem bestInstance_eq_minBy : store.bestInstance clock 30 records =
    minBy (store.score .roomLoad ·.instanceId) (records.filter (store.Eligible clock 30 ·)) := by
  rw [Redis.bestInstance, minBy, List.argmin, List.foldl_filter]
  congr 1
  funext best record
  unfold Redis.betterInstance
  by_cases eligible : store.Eligible clock 30 record
  · cases best <;> simp [eligible, List.argAux]
  · simp [eligible]

/-- Two least loaded instances have the same load. -/
theorem score_eq_of_leastLoaded {record other : SfuInstance}
    (first : LeastLoaded store clock record) (second : LeastLoaded store clock other) :
    store.score .roomLoad record.instanceId = store.score .roomLoad other.instanceId :=
  le_antisymm (first.least _ _ second.stored second.eligible)
    (second.least _ _ first.stored first.eligible)

section Runs

variable {world after : World} {roomId : RoomId} {ownerId : NodeId} {ownerHost : String}
  {ownerPort : UInt16} {record : SfuInstance}

/-- The filter and the minimum of the control store. -/
theorem minBy_eq_bestInstance {entries : List (String × ℤ)}
    (lists : (entries : Multiset (String × ℤ)) =
      (store.scores .roomLoad).entries.map fun entry => (entry.1, entry.2)) :
    minBy (roomLoad (collect entries)) (records.filter fun record =>
      record.alive ∧ clock - record.lastPingUnix ≤ 30 ∧ record.state = "ready" ∧
        roomLoad (collect entries) record < record.maxRooms) =
      store.bestInstance clock 30 records := by
  have load : roomLoad (collect entries) = (store.score .roomLoad ·.instanceId) := by
    funext record
    rw [roomLoad, lookup_collect_entries lists, Redis.score]
  rw [load, bestInstance_eq_minBy]
  congr 1
  refine List.filter_congr fun record _ => decide_eq_decide.mpr ?_
  rw [Redis.Eligible]
  exact and_congr_right fun _ => and_left_comm

/-- The control store chooses what the script would choose in some order. -/
theorem select_runs {result : Except Failure (Option SfuInstance)} :
    selectLeastLoadedInstance.run.Runs World.exec world result after ↔
      ∃ records, world.redis.Lists records ∧
        result = .ok (world.redis.bestInstance (world.now / 1000 : ℕ) 30 records) ∧
        after = world := by
  constructor
  · intro run
    obtain ⟨records, _, ⟨lists, rfl⟩, run⟩ := runs_redisCommand_bind.mp run
    obtain ⟨_, _, loads, run⟩ := runs_except_bind.mp run
    obtain ⟨entries, _, ⟨scores, rfl⟩, rfl, rfl⟩ := runs_redisCommand_bind.mp loads
    obtain ⟨now, _, clock, rfl, rfl⟩ := runs_lift_bind.mp run
    obtain ⟨rfl, rfl⟩ := runs_unixNow.mp clock
    exact ⟨records, lists, congrArg _ (minBy_eq_bestInstance scores), rfl⟩
  · rintro ⟨records, lists, rfl, rfl⟩
    obtain ⟨entries, scores⟩ := Quot.exists_rep
      ((after.redis.scores .roomLoad).entries.map fun entry => (entry.1, entry.2))
    refine runs_redisCommand_bind.mpr ⟨records, _, ⟨lists, rfl⟩, ?_⟩
    refine runs_except_bind.mpr ⟨.ok _, _, runs_redisCommand_bind.mpr
      ⟨entries, _, ⟨scores, rfl⟩, rfl, rfl⟩, ?_⟩
    refine runs_lift_bind.mpr ⟨_, _, runs_unixNow.mpr ⟨rfl, rfl⟩, ?_, rfl⟩
    exact congrArg _ (minBy_eq_bestInstance scores).symm

/-- A write and the rest of an operation. -/
theorem runs_hset {key : HashKey} {field value : String} {rest : Unit → StoreCall Unit}
    {result : Except Failure Unit} :
    (command (.hset key field value) >>= rest).run.Runs World.exec world result after ↔
      (rest ()).run.Runs World.exec { world with redis := world.redis.hset key field value }
        result after := by
  refine runs_redisCommand_bind.trans ⟨?_, fun run => ⟨(), _, rfl, run⟩⟩
  rintro ⟨_, _, rfl, run⟩
  exact run

theorem runs_zincr {set : SortedSet} {member : String} {delta : ℤ} {rest : Unit → StoreCall Unit}
    {result : Except Failure Unit} :
    (command (.zincr set member delta) >>= rest).run.Runs World.exec world result after ↔
      (rest ()).run.Runs World.exec
        { world with redis := world.redis.zadd set member (world.redis.score set member + delta) }
        result after := by
  refine runs_redisCommand_bind.trans ⟨?_, fun run => ⟨(), _, rfl, run⟩⟩
  rintro ⟨_, _, rfl, run⟩
  exact run

theorem updateIdleSince_runs {result : Except Failure Unit} {idleSinceUnix : ℤ}
    (stored : world.redis.instances.lookup record.instanceId = some record) :
    (updateIdleSince record.instanceId idleSinceUnix).run.Runs World.exec world result after ↔
      result = .ok () ∧ after = { world with redis := { world.redis with
        instances := world.redis.instances.insert record.instanceId
          { record with idleSinceUnix } } } := by
  constructor
  · intro run
    obtain ⟨_, _, ⟨rfl, rfl⟩, run⟩ := runs_redisCommand_bind.mp run
    rw [stored] at run
    obtain ⟨_, _, rfl, rfl, rfl⟩ := runs_redisCommand.mp run
    exact ⟨rfl, rfl⟩
  · rintro ⟨rfl, rfl⟩
    refine runs_redisCommand_bind.mpr ⟨_, _, ⟨rfl, rfl⟩, ?_⟩
    rw [stored]
    exact runs_redisCommand.mpr ⟨(), _, rfl, rfl, rfl⟩

/-- The writes of the control store are those of the script. -/
theorem assign_runs {result : Except Failure Unit}
    (stored : world.redis.instances.lookup record.instanceId = some record)
    (unbound : roomId ∉ world.redis.bindings) :
    (assignRoomToInstance roomId ownerId ownerHost ownerPort record).run.Runs World.exec world
        result after ↔
      result = .ok () ∧ after = { world with
        redis := world.redis.assign roomId ownerHost (toString ownerPort.toNat) ownerId
          record } := by
  have absent : world.redis.bindings.lookup roomId = none := Finmap.lookup_eq_none.mpr unbound
  unfold assignRoomToInstance
  rw [runs_hset, runs_hset, runs_hset, runs_hset, runs_hset, runs_hset, runs_zincr]
  refine (updateIdleSince_runs (by exact stored)).trans ?_
  refine and_congr_right fun _ => Eq.congr_right ?_
  simp only [Redis.hset, Redis.zadd, Redis.setScores, Redis.assign, Redis.newBinding, Redis.score,
    Finmap.lookup_insert, absent, Finmap.insert_insert]

/-- **What the two allocators have in common**, when one has made a choice and the other a
reply and a store. -/
structure Agree (world : World) (roomId : RoomId) (ownerId : NodeId) (ownerHost : String)
    (ownerPort : UInt16) (choice : Option SfuInstance) (reply : List String) (scripted : Redis) :
    Prop where
  full : choice = none ↔ reply = []
  load : ∀ record ∈ choice, ∃ instanceId grpcAddr, reply = [instanceId, grpcAddr] ∧
    world.redis.score .roomLoad instanceId = world.redis.score .roomLoad record.instanceId
  store : ∀ record ∈ choice, reply.head? = some record.instanceId → ∀ result after,
    (assignRoomToInstance roomId ownerId ownerHost ownerPort record).run.Runs World.exec world
      result after ↔ result = .ok () ∧ after = { world with redis := scripted }

/-- **The two allocators agree** on a room without a binding, in every store whose records are
under their own ids. -/
theorem allocators_agree (keyed : Keyed world.redis) (unbound : roomId ∉ world.redis.bindings)
    {selected : Except Failure (Option SfuInstance)}
    (selects : selectLeastLoadedInstance.run.Runs World.exec world selected after)
    {reply : List String} {scripted : Redis}
    (scripts : world.redis.exec world.now (.assignRoomToSfu roomId ownerHost
      (toString ownerPort.toNat) ownerId (world.now / 1000 : ℕ) 30) reply scripted) :
    after = world ∧ ∃ choice, selected = .ok choice ∧
      Agree world roomId ownerId ownerHost ownerPort choice reply scripted := by
  obtain ⟨records, lists, rfl, rfl⟩ := select_runs.mp selects
  obtain ⟨others, also, outcome⟩ := scripts
  refine ⟨rfl, _, rfl, ?_⟩
  have absent : (after.redis.bindings.lookup roomId).isSome = false := by
    rw [Option.isSome_eq_false_iff, Option.isNone_iff_eq_none]
    exact Finmap.lookup_eq_none.mpr unbound
  rw [Redis.assignRoomToSfu, absent] at outcome
  rcases @bestInstance_cases _ (after.now / 1000 : ℕ) _ keyed lists with
    ⟨none, full⟩ | ⟨record, found, least⟩
  · rcases @bestInstance_cases _ (after.now / 1000 : ℕ) _ keyed also with
      ⟨none', -⟩ | ⟨other, -, least⟩
    · rw [none'] at outcome
      obtain ⟨rfl, rfl⟩ := Prod.mk.inj outcome
      rw [none]
      exact ⟨iff_of_true rfl rfl, fun _ some => absurd some (Option.not_mem_none _),
        fun _ some => absurd some (Option.not_mem_none _)⟩
    · exact absurd least.hasCapacity full
  · rcases @bestInstance_cases _ (after.now / 1000 : ℕ) _ keyed also with
      ⟨-, full⟩ | ⟨other, found', least'⟩
    · exact absurd least.hasCapacity full
    · rw [found'] at outcome
      obtain ⟨rfl, rfl⟩ := Prod.mk.inj outcome
      rw [found]
      refine ⟨iff_of_false (Option.some_ne_none _) (List.cons_ne_nil _ _), ?_, ?_⟩
      · intro chosen some
        obtain rfl := Option.some.inj some
        exact ⟨_, _, rfl, score_eq_of_leastLoaded least' least⟩
      · intro chosen some same result last
        obtain rfl := Option.some.inj some
        -- the same id is the same record
        have stored := least.stored
        rw [← Option.some.inj same, least'.stored] at stored
        cases stored
        exact assign_runs least.stored unbound

end Runs

/-- Two instances that are ready, neither with a room. -/
def twoInstances : World :=
  { World.fresh with
    redis := { Redis.empty with
      instances := (Finmap.singleton "sfu-1" (readyInstance "sfu-1")).insert "sfu-2"
        (readyInstance "sfu-2") } }

theorem keyed_twoInstances : Keyed twoInstances.redis := by
  intro instanceId record stored
  unfold twoInstances at stored
  dsimp only at stored
  rw [lookup_insert_if] at stored
  split at stored
  · rename_i same
    cases stored
    exact same.symm
  · exact (onlyInstance_lookup stored).2 ▸ (onlyInstance_lookup stored).1.symm

/-- Two instances with the same load, listed in different orders: the control store chooses one
of them and the script the other. -/
theorem allocators_agree_twoInstances : ∃ reply scripted,
    twoInstances.redis.exec 0 (.assignRoomToSfu "room-1" "host-1" "8080" "node-1" 0 30)
      reply scripted ∧ reply = ["sfu-2", "10.0.0.1:50051"] ∧
    Agree twoInstances "room-1" "node-1" "host-1" 8080 (some (readyInstance "sfu-1"))
      reply scripted := by
  have others : twoInstances.redis.Lists [readyInstance "sfu-2", readyInstance "sfu-1"] := by
    unfold Redis.Lists
    decide +kernel
  have lists : twoInstances.redis.Lists [readyInstance "sfu-1", readyInstance "sfu-2"] :=
    (Multiset.coe_eq_coe.mpr (List.Perm.swap _ _ _)).trans others
  have selects := select_runs.mpr ⟨_, lists, rfl, rfl⟩
  have scripts : twoInstances.redis.exec 0
      (.assignRoomToSfu "room-1" "host-1" "8080" "node-1" 0 30) _ _ := ⟨_, others, rfl⟩
  obtain ⟨-, choice, found, agree⟩ := @allocators_agree twoInstances _ "room-1" "node-1"
    "host-1" 8080 keyed_twoInstances Finmap.notMem_empty _ selects _ _ scripts
  have chosen : choice = some (readyInstance "sfu-1") := by
    rw [← Except.ok.inj found]
    decide +kernel
  subst chosen
  exact ⟨_, _, scripts, by decide +kernel, agree⟩

end Allocation

end Callifornia.Supervisor
