import Callifornia.Runs

/-! # The assignment of a room to an SFU

A script on the store chooses the least loaded of the eligible instances, binds the room
and counts it. What the script replies is checked again after it has done so.
-/

namespace Callifornia.Signaling

open Concurrency Concurrency.Program FiniteMap Store

namespace Assignment

variable {store : Redis} {clock staleAfter : ℤ} {records : List SfuInstance}
  {best : Option SfuInstance} {chosen record : SfuInstance}

/-! ## The running minimum -/

/-- What the scan has chosen is one of the eligible records, and none of them is less
loaded. -/
theorem foldl_betterInstance_least
    (found : records.foldl (store.betterInstance clock staleAfter) best = some chosen) :
    (store.Eligible clock staleAfter chosen ∨ best = some chosen) ∧
      ∀ other, best = some other ∨ (other ∈ records ∧ store.Eligible clock staleAfter other) →
        store.score .roomLoad chosen.instanceId ≤ store.score .roomLoad other.instanceId := by
  induction records generalizing best with
  | nil =>
      refine ⟨.inr found, fun other held => ?_⟩
      rcases held with held | ⟨member, -⟩
      · cases found.symm.trans held
        exact le_refl _
      · cases member
  | cons record records ih =>
      obtain ⟨origin, least⟩ := ih found
      by_cases better : store.Eligible clock staleAfter record ∧ ∀ other ∈ best,
          store.score .roomLoad record.instanceId < store.score .roomLoad other.instanceId
      · have now : store.betterInstance clock staleAfter best record = some record := if_pos better
        rw [now] at origin least
        have bound := least record (.inl rfl)
        refine ⟨.inl (origin.elim id fun same => Option.some.inj same ▸ better.1),
          fun other held => ?_⟩
        rcases held with held | ⟨member, eligible⟩
        · exact bound.trans (better.2 other held).le
        · rcases List.mem_cons.mp member with rfl | member
          · exact bound
          · exact least other (.inr ⟨member, eligible⟩)
      · have now : store.betterInstance clock staleAfter best record = best := if_neg better
        rw [now] at origin least
        refine ⟨origin, fun other held => ?_⟩
        rcases held with held | ⟨member, eligible⟩
        · exact least other (.inl held)
        · rcases List.mem_cons.mp member with rfl | member
          · -- another one was at least as good already
            have kept : ∃ held ∈ best, store.score .roomLoad held.instanceId ≤
                store.score .roomLoad other.instanceId := by
              by_contra none
              refine better ⟨eligible, fun held member => ?_⟩
              exact lt_of_not_ge fun le => none ⟨held, member, le⟩
            obtain ⟨held, member, le⟩ := kept
            exact (least held (.inl member)).trans le
          · exact least other (.inr ⟨member, eligible⟩)

/-- A record that no other one undercuts stays chosen. -/
theorem foldl_betterInstance_stays
    (least : ∀ other ∈ records, store.Eligible clock staleAfter other →
      store.score .roomLoad chosen.instanceId ≤ store.score .roomLoad other.instanceId) :
    records.foldl (store.betterInstance clock staleAfter) (some chosen) = some chosen := by
  induction records with
  | nil => rfl
  | cons record records ih =>
      obtain ⟨now, least⟩ := List.forall_mem_cons.mp least
      have stays : store.betterInstance clock staleAfter (some chosen) record = some chosen := by
        refine if_neg ?_
        rintro ⟨eligible, better⟩
        exact absurd (better chosen rfl) (not_lt.mpr (now eligible))
      rw [List.foldl_cons, stays, ih least]

/-! ## What an assignment has to do -/

/-- The instance is stored and eligible, and no eligible one is less loaded. -/
structure LeastLoaded (store : Redis) (clock : ℤ) (record : SfuInstance) : Prop where
  stored : store.instances.lookup record.instanceId = some record
  eligible : store.Eligible clock 30 record
  least : ∀ instanceId other, store.instances.lookup instanceId = some other →
    store.Eligible clock 30 other →
    store.score .roomLoad record.instanceId ≤ store.score .roomLoad other.instanceId

/-- Some instance may take a room. -/
def HasCapacity (store : Redis) (clock : ℤ) : Prop :=
  ∃ instanceId record, store.instances.lookup instanceId = some record ∧
    store.Eligible clock 30 record

/-- The fields of a binding. -/
def bindingFields (ownerId : NodeId) (ownerHost : String) (ownerPort : UInt16)
    (record : SfuInstance) : List (String × String) :=
  [("owner_host", ownerHost), ("owner_port", toString ownerPort.toNat),
    ("signaling_owner_id", ownerId), ("room_state", "active"),
    ("sfu_instance_id", record.instanceId), ("sfu_grpc_addr", record.grpcAddr)]

/-- The room is bound to the instance and counted, the instance is not idle any more, and
nothing else has changed. -/
structure Bound (roomId : RoomId) (fields : List (String × String)) (record : SfuInstance)
    (before after : Redis) : Prop where
  binding : ∃ hash, after.bindings.lookup roomId = some hash ∧
    ∀ field, hash.get field = fields.lookup field
  bindings : ∀ other, other ≠ roomId → after.bindings.lookup other = before.bindings.lookup other
  load : after.score .roomLoad record.instanceId = before.score .roomLoad record.instanceId + 1
  scores : ∀ set member, (set, member) ≠ (.roomLoad, record.instanceId) →
    (after.scores set).lookup member = (before.scores set).lookup member
  instances : ∀ instanceId, after.instances.lookup instanceId =
    if instanceId = record.instanceId then some { record with idleSinceUnix := 0 }
    else before.instances.lookup instanceId
  members : after.members = before.members
  sessions : after.sessions = before.sessions
  strings : after.strings = before.strings

variable (roomId : RoomId) (ownerId : NodeId) (ownerHost : String) (ownerPort : UInt16)

/-- **What an assignment has to do.** -/
structure Assigns (world : World) (result : Except RedisRoomError SfuAssignment)
    (after : World) : Prop where
  full : result = .error .noSfuCapacity ↔ ¬ HasCapacity world.redis (world.now / 1000 : ℕ)
  taken : result = .error .roomAlreadyExists ↔
    HasCapacity world.redis (world.now / 1000 : ℕ) ∧ roomId ∈ world.redis.bindings
  assigned : HasCapacity world.redis (world.now / 1000 : ℕ) → roomId ∉ world.redis.bindings →
    ∃ record, LeastLoaded world.redis (world.now / 1000 : ℕ) record ∧
      result = .ok ⟨record.grpcAddr⟩ ∧
      ∃ redis, after = { world with redis } ∧
        Bound roomId (bindingFields ownerId ownerHost ownerPort record) record world.redis redis
  failed : ∀ error, result = .error error → after = world

/-- What the second check makes of an instance. -/
def Presentable (record : SfuInstance) : Prop :=
  record.grpcAddr ≠ "" ∧ record.instanceId ≠ "__ROOM_EXISTS__"

variable {roomId ownerId ownerHost ownerPort}

/-! ## Runs -/

theorem ofReply_chosen (record : SfuInstance) :
    SfuAssignment.ofReply [record.instanceId, record.grpcAddr] =
      if record.instanceId = "__ROOM_EXISTS__" then .error .roomAlreadyExists
      else if record.grpcAddr = "" then .error .invalidRoomTarget
      else .ok ⟨record.grpcAddr⟩ := by
  rw [SfuAssignment.ofReply]
  split
  · rfl
  · by_cases empty : record.grpcAddr = ""
    · rw [if_pos empty, List.head?_cons, Option.filter_some, if_neg (by simp [empty])]
    · rw [if_neg empty, List.head?_cons, Option.filter_some, if_pos (by simp [empty])]

/-- The second check refuses an instance without an address, or with the marker for an id. -/
theorem ofReply_error (refused : ¬ Presentable record) :
    ∃ error, SfuAssignment.ofReply [record.instanceId, record.grpcAddr] = .error error := by
  rw [ofReply_chosen]
  by_cases taken : record.instanceId = "__ROOM_EXISTS__"
  · exact ⟨_, if_pos taken⟩
  · have empty : record.grpcAddr = "" := by
      by_contra named
      exact refused ⟨named, taken⟩
    exact ⟨_, (if_neg taken).trans (if_pos empty)⟩

/-- A run meets the records in some order, and then checks what the script replies. -/
theorem assign_runs {world after : World} {result : Except RedisRoomError SfuAssignment} :
    (assignRoomToLeastLoadedSfu roomId ownerId ownerHost ownerPort).run.Runs World.exec world
        result after ↔
      ∃ records, world.redis.Lists records ∧
        (result, after) =
          let outcome := world.redis.assignRoomToSfu roomId ownerHost (toString ownerPort.toNat)
            ownerId (world.now / 1000 : ℕ) 30 records
          (SfuAssignment.ofReply outcome.1, { world with redis := outcome.2 }) := by
  constructor
  · intro run
    obtain ⟨now, middle, clock, rest⟩ := runs_lift_bind.mp run
    obtain ⟨rfl, rfl⟩ := runs_unixNow.mp clock
    obtain ⟨value, last, script, rest⟩ := runs_except_bind.mp rest
    obtain ⟨reply, redis, ⟨records, lists, outcome⟩, rfl, rfl⟩ := runs_redisCommand.mp script
    obtain ⟨rfl, rfl⟩ := rest
    refine ⟨records, lists, ?_⟩
    dsimp only
    rw [← outcome]
  · rintro ⟨records, lists, outcome⟩
    obtain ⟨rfl, rfl⟩ := Prod.mk.inj outcome
    refine runs_lift_bind.mpr ⟨_, world, runs_unixNow.mpr ⟨rfl, rfl⟩, ?_⟩
    refine runs_except_bind.mpr ⟨.ok _, _, runs_redisCommand.mpr
      ⟨_, _, ⟨records, lists, rfl⟩, rfl, rfl⟩, rfl, rfl⟩

/-- What the script writes. -/
theorem bound_assign (store : Redis) (record : SfuInstance) :
    Bound roomId (bindingFields ownerId ownerHost ownerPort record) record store
      (store.assign roomId ownerHost (toString ownerPort.toNat) ownerId record) := by
  refine ⟨⟨_, Finmap.lookup_insert _, fun field => ?_⟩, fun other apart => ?_, ?_,
    fun set member apart => ?_, fun instanceId => lookup_insert_if .., rfl, rfl, rfl⟩
  · rw [Redis.get_newBinding, bindingFields]
    simp only [List.lookup_cons, List.lookup_nil]
    grind
  · exact Finmap.lookup_insert_of_ne _ apart
  · exact (store.score_zadd ..).trans (if_pos rfl)
  · simp only [Redis.assign, Redis.zadd, Redis.setScores, Function.update_apply]
    split
    · rename_i same
      subst same
      exact Finmap.lookup_insert_of_ne _ fun equal => apart (by rw [equal])
    · rfl

/-- Each record is stored under its id. -/
def Keyed (store : Redis) : Prop :=
  ∀ instanceId record, store.instances.lookup instanceId = some record →
    record.instanceId = instanceId

/-- Whatever the order, the script finds an instance if it can, and then a least loaded
one. -/
theorem bestInstance_cases (keyed : Keyed store) (lists : store.Lists records) :
    (store.bestInstance clock 30 records = none ∧ ¬ HasCapacity store clock) ∨
      ∃ record, store.bestInstance clock 30 records = some record ∧
        LeastLoaded store clock record := by
  cases found : store.bestInstance clock 30 records with
  | none =>
      refine .inl ⟨rfl, ?_⟩
      rintro ⟨instanceId, record, stored, eligible⟩
      exact (store.bestInstance_eq_none).mp found record (lists.mem_iff.mpr ⟨_, stored⟩) eligible
  | some record =>
      obtain ⟨origin, least⟩ := foldl_betterInstance_least found
      obtain ⟨instanceId, stored⟩ := lists.mem_iff.mp (store.bestInstance_mem found)
      obtain rfl := keyed instanceId record stored
      refine .inr ⟨record, rfl, stored, origin.resolve_right nofun, ?_⟩
      exact fun instanceId other stored eligible =>
        least other (.inr ⟨lists.mem_iff.mpr ⟨_, stored⟩, eligible⟩)

/-- Every least loaded instance comes first in some order. -/
theorem LeastLoaded.first (least : LeastLoaded store clock record) :
    ∃ records, store.Lists records ∧ store.bestInstance clock 30 records = some record := by
  have member : record ∈ store.instances.entries.map Sigma.snd :=
    Multiset.mem_map.mpr
      ⟨⟨record.instanceId, record⟩, Finmap.mem_lookup_iff.mp least.stored, rfl⟩
  obtain ⟨rest, whole⟩ := Multiset.exists_cons_of_mem member
  have lists : store.Lists (record :: rest.toList) := by
    rw [Redis.Lists, ← Multiset.cons_coe, Multiset.coe_toList, whole]
  refine ⟨_, lists, ?_⟩
  have first : store.betterInstance clock 30 none record = some record :=
    if_pos ⟨least.eligible, nofun⟩
  rw [Redis.bestInstance, List.foldl_cons, first]
  refine foldl_betterInstance_stays fun other member eligible => ?_
  obtain ⟨otherId, stored⟩ := lists.mem_iff.mp (List.mem_cons_of_mem _ member)
  exact least.least otherId other stored eligible

theorem LeastLoaded.hasCapacity (least : LeastLoaded store clock record) :
    HasCapacity store clock :=
  ⟨_, _, least.stored, least.eligible⟩

/-- An instance the second check refuses has been written when it is refused. -/
theorem not_assigns {world : World}
    (least : LeastLoaded world.redis (world.now / 1000 : ℕ) record)
    (unbound : roomId ∉ world.redis.bindings) (refused : ¬ Presentable record) :
    ∃ result after, (assignRoomToLeastLoadedSfu roomId ownerId ownerHost ownerPort).run.Runs
        World.exec world result after ∧
      ¬ Assigns roomId ownerId ownerHost ownerPort world result after := by
  obtain ⟨records, lists, found⟩ := least.first
  have absent : (world.redis.bindings.lookup roomId).isSome = false := by
    rw [Option.isSome_eq_false_iff, Option.isNone_iff_eq_none]
    exact Finmap.lookup_eq_none.mpr unbound
  refine ⟨_, _, assign_runs.mpr ⟨records, lists, rfl⟩, fun assigns => ?_⟩
  simp only [Redis.assignRoomToSfu, found, absent, Bool.false_eq_true, ↓reduceIte, ofReply_chosen]
    at assigns
  obtain ⟨error, failed⟩ := ofReply_error refused
  rw [ofReply_chosen] at failed
  have same := congrArg (·.redis.bindings.lookup roomId) (assigns.failed error failed)
  have written : (world.redis.bindings.insert roomId
      (Redis.newBinding ownerHost (toString ownerPort.toNat) ownerId record)).lookup roomId =
        world.redis.bindings.lookup roomId := same
  rw [Finmap.lookup_insert, Finmap.lookup_eq_none.mpr unbound] at written
  cases written

/-- **Every assignment does what it has to do** exactly if the room is bound already, or
each least loaded instance has an address and an id that the reply can carry. -/
theorem assigns_iff {world : World} (keyed : Keyed world.redis) :
    (∀ result after, (assignRoomToLeastLoadedSfu roomId ownerId ownerHost ownerPort).run.Runs
        World.exec world result after →
      Assigns roomId ownerId ownerHost ownerPort world result after) ↔
      roomId ∈ world.redis.bindings ∨
        ∀ record, LeastLoaded world.redis (world.now / 1000 : ℕ) record → Presentable record := by
  constructor
  · intro assigns
    by_contra broken
    obtain ⟨unbound, some⟩ := not_or.mp broken
    simp only [not_forall, exists_prop] at some
    obtain ⟨record, least, refused⟩ := some
    obtain ⟨result, after, run, broken⟩ := @not_assigns record roomId ownerId ownerHost ownerPort
      world least unbound refused
    exact broken (assigns result after run)
  · intro regular result after run
    obtain ⟨records, lists, outcome⟩ := assign_runs.mp run
    simp only [Redis.assignRoomToSfu] at outcome
    rcases @bestInstance_cases world.redis (world.now / 1000 : ℕ) records keyed lists with
      ⟨none, full⟩ | ⟨record, found, least⟩
    · simp only [none] at outcome
      obtain ⟨rfl, rfl⟩ := Prod.mk.inj outcome
      refine ⟨iff_of_true rfl full, iff_of_false nofun fun both => full both.1,
        fun capacity => absurd capacity full, fun _ _ => rfl⟩
    · simp only [found] at outcome
      have capacity := least.hasCapacity
      cases bound : world.redis.bindings.lookup roomId with
      | some hash =>
          simp only [bound, Option.isSome_some, ↓reduceIte] at outcome
          obtain ⟨rfl, rfl⟩ := Prod.mk.inj outcome
          have member := Finmap.mem_of_lookup_eq_some bound
          refine ⟨iff_of_false nofun (not_not.mpr capacity), iff_of_true rfl ⟨capacity, member⟩,
            fun _ unbound => absurd member unbound, fun _ _ => rfl⟩
      | none =>
          have unbound := Finmap.lookup_eq_none.mp bound
          obtain ⟨named, other⟩ := regular.resolve_left unbound record least
          simp only [bound, Option.isSome_none, Bool.false_eq_true, ↓reduceIte, ofReply_chosen,
            other, named] at outcome
          obtain ⟨rfl, rfl⟩ := Prod.mk.inj outcome
          refine ⟨iff_of_false nofun (not_not.mpr capacity), iff_of_false nofun fun both =>
            unbound both.2, fun _ _ => ⟨record, least, rfl, _, rfl, bound_assign _ record⟩, nofun⟩

/-! ## Two stores -/

/-- An instance that is ready and has no rooms. -/
def readyInstance (instanceId : InstanceId) : SfuInstance where
  instanceId
  grpcAddr := "10.0.0.1:50051"
  maxRooms := 10
  alive := true
  state := "ready"
  lastPingUnix := 0
  idleSinceUnix := 0

/-- A deployment with this instance only. -/
def onlyInstance (instanceId : InstanceId) : World :=
  { World.fresh with
    redis := { Redis.empty with
      instances := Finmap.singleton instanceId (readyInstance instanceId) } }

theorem onlyInstance_lookup {instanceId query : InstanceId} {record : SfuInstance}
    (stored : (onlyInstance instanceId).redis.instances.lookup query = some record) :
    query = instanceId ∧ record = readyInstance instanceId := by
  have present := Finmap.mem_singleton _ _ _ |>.mp (Finmap.mem_of_lookup_eq_some stored)
  subst present
  exact ⟨rfl, Option.some.inj (stored.symm.trans (Finmap.lookup_singleton_eq))⟩

theorem onlyInstance_least (instanceId : InstanceId) :
    LeastLoaded (onlyInstance instanceId).redis 0 (readyInstance instanceId) where
  stored := Finmap.lookup_singleton_eq
  eligible := ⟨rfl, rfl, show (0 : ℤ) - 0 ≤ 30 by decide, show (0 : ℤ) < 10 by decide⟩
  least := by
    intro query other stored _
    rw [(onlyInstance_lookup stored).2]

theorem assigns_ready : Keyed (onlyInstance "sfu-1").redis ∧ ∀ result after,
    (assignRoomToLeastLoadedSfu "room-1" "node-1" "host-1" 8080).run.Runs World.exec
      (onlyInstance "sfu-1") result after →
    Assigns "room-1" "node-1" "host-1" 8080 (onlyInstance "sfu-1") result after := by
  have keyed : Keyed (onlyInstance "sfu-1").redis := by
    intro instanceId record stored
    obtain ⟨rfl, rfl⟩ := onlyInstance_lookup stored
    rfl
  refine ⟨keyed, (assigns_iff keyed).mpr (.inr fun record least => ?_)⟩
  rw [(onlyInstance_lookup least.stored).2]
  exact ⟨by decide, by decide⟩

/-- An instance whose id is the script's mark of a taken room. -/
theorem not_assigns_marked : ∃ result after,
    (assignRoomToLeastLoadedSfu "room-1" "node-1" "host-1" 8080).run.Runs World.exec
      (onlyInstance "__ROOM_EXISTS__") result after ∧
    ¬ Assigns "room-1" "node-1" "host-1" 8080 (onlyInstance "__ROOM_EXISTS__") result after :=
  not_assigns (onlyInstance_least "__ROOM_EXISTS__") (Finmap.notMem_empty) fun presentable =>
    presentable.2 rfl

end Assignment

end Callifornia.Signaling
