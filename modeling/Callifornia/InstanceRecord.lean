import Callifornia.Replay
import Callifornia.Supervisor.Storage

/-! # Updates of an SFU record

The probes of the supervisor and the idle updates of both services read the whole record
of an SFU, change some of its fields and write the whole record back. The assignment
script does so in one step.
-/

namespace Callifornia

open Concurrency Concurrency.System FiniteMap Store

/-- What a probe finds out about an SFU. -/
structure Health where
  alive : Bool
  state : String
  lastPingUnix : ℤ
  deriving DecidableEq

def Store.SfuInstance.health (record : SfuInstance) : Health :=
  { alive := record.alive, state := record.state, lastPingUnix := record.lastPingUnix }

/-- The calls that change the record of an SFU. -/
inductive Update
  | health (alive : Bool) (now : ℤ)
  | idleSince (idleSinceUnix : ℤ)
  | signalingIdleSince (idleSinceUnix : ℤ)
  | assign (roomId : RoomId) (ownerId : NodeId) (ownerHost : String) (ownerPort : UInt16)

/-- What is meant to change when a record is written. -/
inductive Write
  | health (health : Health)
  | idleSince (idleSinceUnix : ℤ)
  deriving DecidableEq

namespace Update

def program (instanceId : InstanceId) : Update → Call Unit
  | .health alive now =>
      Functor.mapConst () (Supervisor.updateSfuHealth instanceId alive now).run
  | .idleSince idleSinceUnix =>
      Functor.mapConst () (Supervisor.updateIdleSince instanceId idleSinceUnix).run
  | .signalingIdleSince idleSinceUnix =>
      Functor.mapConst () (Signaling.updateSfuIdleSince instanceId idleSinceUnix).run
  | .assign roomId ownerId ownerHost ownerPort =>
      Functor.mapConst ()
        (Signaling.assignRoomToLeastLoadedSfu roomId ownerId ownerHost ownerPort).run

def write (update : Update) (payload : SfuInstance) : Write :=
  match update with
  | .health .. => .health payload.health
  | _ => .idleSince payload.idleSinceUnix

/-- What a command writes to the record. -/
def written (instanceId : InstanceId) (update : Update) (before : Redis) :
    (op : Op) → op.Reply → List Write
  | .redis (.hsetInstance key payload), _ =>
      if key = instanceId then [update.write payload] else []
  | .redis (.assignRoomToSfu roomId ..), reply =>
      match reply with
      | .ok (best :: _) =>
          if best = instanceId ∧ before.bindings.lookup roomId = none then [.idleSince 0] else []
      | _ => []
  | _, _ => []

/-- The fields that an update does not mean to change are those it has read. -/
def Undisturbed (update : Update) (read current : SfuInstance) : Prop :=
  match update with
  | .health .. => current.idleSinceUnix = read.idleSinceUnix
  | _ => current.health = read.health

instance (update : Update) (read current : SfuInstance) :
    Decidable (update.Undisturbed read current) := by
  unfold Undisturbed
  split <;> infer_instance

end Update

/-- The record a call has read, if any. -/
def reading (phase : Option SfuInstance) :
    (command : Update × Op) → command.2.Reply → Option SfuInstance
  | (_, .redis (.hgetInstance _)), .ok (some record) => some record
  | _, _ => phase

/-- Calls that change the record of one SFU, and what they have written. All else may
change by itself. -/
def recordUpdates (instanceId : InstanceId) :
    System (Update × Op) (fun command => command.2.Reply) where
  State := World × List Write
  Phase := Option SfuInstance
  Result := Unit
  exec command before reply after := World.exec command.2 before.1 reply after.1 ∧
    after.2 = before.2 ++ command.1.written instanceId before.1.redis command.2 reply
  advance := reading
  start before _ phase program after := after = before ∧ phase = none ∧
    ∃ update : Update, program = (update.program instanceId).marked update
  finish state _ _ := state
  discard _ _ := False
  environment before _ after :=
    after.1.redis.instances = before.1.redis.instances ∧ after.2 = before.2

/-- When a record is written back, the fields that the call does not mean to change are
still those it has read. -/
def Unmoved (instanceId : InstanceId) : (recordUpdates instanceId).Guard :=
  fun (state : World × List Write) (phase : Option SfuInstance) command _ =>
    match command with
    | (update, .redis (.hsetInstance ..)) => ∀ read ∈ phase,
        ∀ current ∈ state.1.redis.instances.lookup instanceId, update.Undisturbed read current
    | _ => True

/-- The health that was written last. -/
def lastHealth (initial : Health) (log : List Write) : Health :=
  log.foldl (fun last write => match write with
    | .health health => health
    | .idleSince _ => last) initial

/-- The start of the idle time that was written last. -/
def lastIdleSince (initial : ℤ) (log : List Write) : ℤ :=
  log.foldl (fun last write => match write with
    | .health _ => last
    | .idleSince idleSinceUnix => idleSinceUnix) initial

/-- The record is what was written last, field by field. -/
structure Store.SfuInstance.Follows (record initial : SfuInstance) (log : List Write) : Prop where
  instanceId : record.instanceId = initial.instanceId
  health : record.health = lastHealth initial.health log
  idleSinceUnix : record.idleSinceUnix = lastIdleSince initial.idleSinceUnix log
  grpcAddr : record.grpcAddr = initial.grpcAddr
  maxRooms : record.maxRooms = initial.maxRooms

/-- The stored record follows the writes, and whoever has read a record has read one of
this instance. -/
structure Current (instanceId : InstanceId) (initial : SfuInstance) (state : World × List Write)
    (phases : Multiset (Option SfuInstance)) : Prop where
  keyed : ∀ key record, state.1.redis.instances.lookup key = some record → record.instanceId = key
  stored : ∃ record, state.1.redis.instances.lookup instanceId = some record ∧
    record.Follows initial state.2
  read : ∀ read, some read ∈ phases → read.instanceId = instanceId ∧
    read.grpcAddr = initial.grpcAddr ∧ read.maxRooms = initial.maxRooms

/-- The last health written after one more write. -/
@[simp] theorem lastHealth_append (initial : Health) (log : List Write) (write : Write) :
    lastHealth initial (log ++ [write]) = match write with
      | .health health => health
      | .idleSince _ => lastHealth initial log := by
  rw [lastHealth, List.foldl_append]
  rfl

/-- The last idle time written after one more write. -/
@[simp] theorem lastIdleSince_append (initial : ℤ) (log : List Write) (write : Write) :
    lastIdleSince initial (log ++ [write]) = match write with
      | .health _ => lastIdleSince initial log
      | .idleSince idleSinceUnix => idleSinceUnix := by
  rw [lastIdleSince, List.foldl_append]
  rfl

/-- The record is written back with the fields that the update means to change. -/
structure Update.Changes (update : Update) (read payload : SfuInstance) : Prop where
  instanceId : payload.instanceId = read.instanceId
  grpcAddr : payload.grpcAddr = read.grpcAddr
  maxRooms : payload.maxRooms = read.maxRooms
  others : match update with
    | .health .. => payload.idleSinceUnix = read.idleSinceUnix
    | _ => payload.health = read.health

namespace Current

variable {instanceId : InstanceId} {initial : SfuInstance} {world : World} {log : List Write}
  {phases others : Multiset (Option SfuInstance)} {phase : Option SfuInstance}

/-- The instances stay as they are. -/
theorem unchanged (current : Current instanceId initial (world, log) phases) {after : World}
    (same : after.redis.instances = world.redis.instances) :
    Current instanceId initial (after, log) phases := by
  obtain ⟨keyed, stored, read⟩ := current
  exact ⟨by rw [same]; exact keyed, by rw [same]; exact stored, read⟩

/-- A task that is writing nothing does not count. -/
theorem cons_none_iff : Current instanceId initial (world, log) (none ::ₘ others) ↔
    Current instanceId initial (world, log) others := by
  refine ⟨fun ⟨keyed, stored, read⟩ => ⟨keyed, stored, fun record member => ?_⟩,
    fun ⟨keyed, stored, read⟩ => ⟨keyed, stored, fun record member => ?_⟩⟩
  · exact read record (Multiset.mem_cons_of_mem member)
  · exact read record ((Multiset.mem_cons.mp member).resolve_left nofun)

/-- A task that ends leaves the record current. -/
theorem tail (current : Current instanceId initial (world, log) (phase ::ₘ others)) :
    Current instanceId initial (world, log) others :=
  ⟨current.keyed, current.stored, fun record member =>
    current.read record (Multiset.mem_cons_of_mem member)⟩

/-- A call reads the record. -/
theorem reads (current : Current instanceId initial (world, log) (phase ::ₘ others))
    {record : SfuInstance} (found : world.redis.instances.lookup instanceId = some record) :
    Current instanceId initial (world, log) (some record ::ₘ others) := by
  refine ⟨current.keyed, current.stored, fun read member => ?_⟩
  rcases Multiset.mem_cons.mp member with same | member
  · cases same
    obtain ⟨stored, lookup, follows⟩ := current.stored
    cases lookup.symm.trans found
    exact ⟨current.keyed instanceId _ found, follows.grpcAddr, follows.maxRooms⟩
  · exact current.read read (Multiset.mem_cons_of_mem member)

/-- A record is replaced, under its own key. -/
theorem inserted (current : Current instanceId initial (world, log) phases) {record : SfuInstance}
    {more : List Write} {after : World}
    (instances : after.redis.instances = world.redis.instances.insert record.instanceId record)
    (follows : record.instanceId = instanceId → record.Follows initial (log ++ more))
    (other : record.instanceId ≠ instanceId → more = []) :
    Current instanceId initial (after, log ++ more) phases := by
  refine ⟨fun key query found => ?_, ?_, current.read⟩
  · rw [instances, lookup_insert_if] at found
    split at found
    · rename_i same
      cases found
      exact same.symm
    · exact current.keyed key query found
  · obtain ⟨stored, lookup, before⟩ := current.stored
    rw [instances, lookup_insert_if]
    by_cases same : instanceId = record.instanceId
    · rw [if_pos same]
      exact ⟨record, rfl, follows same.symm⟩
    · rw [if_neg same, other (Ne.symm same), List.append_nil]
      exact ⟨stored, lookup, before⟩

/-- A call writes the record back. -/
theorem writes {update : Update} {read payload : SfuInstance}
    (current : Current instanceId initial (world, log) (some read ::ₘ others))
    (undisturbed : ∀ now ∈ world.redis.instances.lookup instanceId, update.Undisturbed read now)
    (changes : update.Changes read payload) {after : World}
    (instances : after.redis.instances =
      world.redis.instances.insert payload.instanceId payload) :
    Current instanceId initial (after, log ++ [update.write payload]) (some read ::ₘ others) := by
  obtain ⟨own, grpcAddr, maxRooms⟩ := current.read read (Multiset.mem_cons_self _ _)
  obtain ⟨stored, lookup, before⟩ := current.stored
  have undisturbed := undisturbed stored lookup
  refine current.inserted instances (fun same => ?_) fun other => ?_
  · have named : payload.instanceId = initial.instanceId := by
      rw [same, ← before.instanceId, current.keyed instanceId stored lookup]
    have others := changes.others
    cases update with
    | health alive now =>
        refine ⟨named, ?_, ?_, changes.grpcAddr.trans grpcAddr, changes.maxRooms.trans maxRooms⟩
        · rw [lastHealth_append]
          rfl
        · rw [lastIdleSince_append]
          exact others.trans (undisturbed.symm.trans before.idleSinceUnix)
    | _ =>
        refine ⟨named, ?_, ?_, changes.grpcAddr.trans grpcAddr, changes.maxRooms.trans maxRooms⟩
        · rw [lastHealth_append]
          exact others.trans (undisturbed.symm.trans before.health)
        · rw [lastIdleSince_append]
          rfl
  · exact absurd (changes.instanceId.trans own) other

/-- The script keeps the record of the instance it chooses, with a new idle time. -/
theorem assigns {update : Update} {roomId : RoomId} {ownerHost ownerPort ownerId : String}
    {clock staleAfter : ℤ} {reply : Except RedisFailure (List String)} {after : World}
    (current : Current instanceId initial (world, log) phases)
    (effect : World.exec (.redis (.assignRoomToSfu roomId ownerHost ownerPort ownerId clock
      staleAfter)) world reply after) :
    Current instanceId initial (after, log ++ update.written instanceId world.redis
      (.redis (.assignRoomToSfu roomId ownerHost ownerPort ownerId clock staleAfter)) reply)
      phases := by
  obtain ⟨value, redis, ⟨records, lists, outcome⟩, rfl, rfl⟩ := effect
  unfold Redis.assignRoomToSfu at outcome
  cases chosen : world.redis.bestInstance clock staleAfter records with
  | none =>
      rw [chosen] at outcome
      cases outcome
      simp only [Update.written, List.append_nil]
      exact current
  | some best =>
      rw [chosen] at outcome
      by_cases bound : (world.redis.bindings.lookup roomId).isSome = true
      · simp only [bound, ↓reduceIte] at outcome
        cases outcome
        have taken : ¬ ("__ROOM_EXISTS__" = instanceId ∧
            world.redis.bindings.lookup roomId = none) := fun free => by
          rw [free.2] at bound
          cases bound
        simp only [Update.written, if_neg taken, List.append_nil]
        exact current
      · simp only [bound, Bool.false_eq_true, ↓reduceIte] at outcome
        cases outcome
        have free := Option.not_isSome_iff_eq_none.mp bound
        obtain ⟨key, lookup⟩ := lists.mem_iff.mp (Redis.bestInstance_mem _ chosen)
        have own : best.instanceId = key := current.keyed key best lookup
        simp only [Update.written, free, and_true]
        refine @inserted _ _ _ _ _ current { best with idleSinceUnix := 0 } _ _ rfl
          (fun same => ?_) (fun other => if_neg other)
        rw [if_pos same]
        have same : best.instanceId = instanceId := same
        obtain ⟨stored, found, before⟩ := current.stored
        rw [← same, own, lookup] at found
        cases found
        refine ⟨before.instanceId, ?_, ?_, before.grpcAddr, before.maxRooms⟩
        · rw [lastHealth_append]
          exact before.health
        · rw [lastIdleSince_append]

end Current

/-! ## Calls -/

/-- The outline of the record of an instance. -/
def recording (instanceId : InstanceId) (initial : SfuInstance) :
    Outline (recordUpdates instanceId) where
  guard := Unmoved instanceId
  inv := Current instanceId initial
  asserts _ _ _ := True

section Calls

variable {instanceId : InstanceId} {initial : SfuInstance} {ε : Type}

/-- A call that reads the record, changes it and writes it back. -/
theorem change_safe {update : Update} {onFailure : RedisFailure → ε}
    {next : Option SfuInstance → ExceptT ε Call Unit}
    (absent : ∃ result, next none = .mk (.ret result))
    {key : SfuInstance → InstanceId} {change : SfuInstance → SfuInstance}
    (present : ∀ record, next (some record) =
      redisCommand onFailure (.hsetInstance (key record) (change record)))
    (keyed : ∀ read, read.instanceId = instanceId → key read = instanceId)
    (changes : ∀ read, update.Changes read (change read)) :
    (recording instanceId initial).Safe (fun _ _ => True) none
      ((redisCommand onFailure (.hgetInstance instanceId) >>= next).run.marked update) := by
  rintro ⟨world, log⟩ others current -
  refine ⟨trivial, fun reply ⟨after, later⟩ ⟨effect, grown⟩ => ?_⟩
  obtain ⟨value, redis, ⟨rfl, rfl⟩, rfl, same⟩ := effect
  cases same
  cases (show later = log ++ [] from grown)
  rw [List.append_nil]
  cases found : world.redis.instances.lookup instanceId with
  | none =>
      obtain ⟨result, absent⟩ := absent
      refine ⟨current, ?_⟩
      change (recording instanceId initial).Safe _ none ((next none).run.marked update)
      rw [absent]
      trivial
  | some record =>
      refine ⟨current.reads found, ?_⟩
      change (recording instanceId initial).Safe _ (some record)
        ((next (some record)).run.marked update)
      rw [present]
      rintro ⟨world, log⟩ others current undisturbed
      have own := (current.read record (Multiset.mem_cons_self _ _)).1
      have payload := (changes record).instanceId.trans own
      refine ⟨trivial, fun reply ⟨after, later⟩ ⟨effect, grown⟩ => ⟨?_, trivial⟩⟩
      obtain ⟨value, redis, stored, rfl, same⟩ := effect
      cases same
      cases stored
      have grown : later = log ++ if key record = instanceId then [update.write (change record)]
        else [] := grown
      rw [grown, if_pos (keyed record own)]
      refine current.writes (fun now found => undisturbed record rfl now found) (changes record) ?_
      rw [payload, ← keyed record own]

/-- A health update writes the record it read with the new health. -/
theorem updateSfuHealth_safe (alive : Bool) (now : ℤ) :
    (recording instanceId initial).Safe (fun _ _ => True) none
      ((Supervisor.updateSfuHealth instanceId alive now).run.marked (.health alive now)) := by
  refine change_safe ⟨.ok (), rfl⟩ (fun _ => rfl) (fun _ own => ?_) fun _ => ?_
  · cases alive <;> exact own
  · cases alive <;> exact ⟨rfl, rfl, rfl, rfl⟩

/-- An idle update of the supervisor writes the record it read with the new time. -/
theorem updateIdleSince_safe (idleSinceUnix : ℤ) :
    (recording instanceId initial).Safe (fun _ _ => True) none
      ((Supervisor.updateIdleSince instanceId idleSinceUnix).run.marked
        (.idleSince idleSinceUnix)) :=
  change_safe ⟨.error .missingSfuInstance, rfl⟩ (fun _ => rfl) (fun _ own => own)
    fun _ => ⟨rfl, rfl, rfl, rfl⟩

/-- An idle update of the signaling node writes the record it read with the new time. -/
theorem updateSfuIdleSince_safe (idleSinceUnix : ℤ) :
    (recording instanceId initial).Safe (fun _ _ => True) none
      ((Signaling.updateSfuIdleSince instanceId idleSinceUnix).run.marked
        (.signalingIdleSince idleSinceUnix)) :=
  change_safe ⟨.ok (), rfl⟩ (fun _ => rfl) (fun _ _ => rfl) fun _ => ⟨rfl, rfl, rfl, rfl⟩

/-- An assignment writes no record. -/
theorem assign_safe (roomId : RoomId) (ownerId : NodeId) (ownerHost : String) (ownerPort : UInt16) :
    (recording instanceId initial).Safe (fun _ _ => True) none
      ((Signaling.assignRoomToLeastLoadedSfu roomId ownerId ownerHost ownerPort).run.marked
        (.assign roomId ownerId ownerHost ownerPort)) := by
  rintro ⟨world, log⟩ others current -
  refine ⟨trivial, fun now ⟨after, later⟩ ⟨⟨_, same⟩, grown⟩ => ?_⟩
  cases (show after = world from same)
  cases (show later = log ++ [] from grown)
  rw [List.append_nil]
  refine ⟨current, ?_⟩
  rintro ⟨world, log⟩ others current -
  refine ⟨trivial, fun reply ⟨after, later⟩ ⟨effect, grown⟩ => ?_⟩
  cases (show later = _ from grown)
  refine ⟨current.assigns effect, ?_⟩
  obtain ⟨value, redis, -, rfl, -⟩ := effect
  trivial

/-- Every update keeps the record current. -/
theorem program_safe (update : Update) :
    (recording instanceId initial).Safe (fun _ _ => True) none
      ((update.program instanceId).marked update) := by
  have ends {α : Type} {program : Call α} (safe : (recording instanceId initial).Safe
      (fun _ _ => True) none (program.marked update)) : (recording instanceId initial).Safe
      (fun _ _ => True) none ((Functor.mapConst () program : Call Unit).marked update) := by
    have split : (Functor.mapConst () program : Call Unit) = program >>= fun _ => .ret () := rfl
    rw [split, Program.marked_bind]
    exact Outline.Safe.bind (safe.mono fun _ _ _ => trivial)
  cases update with
  | health alive now => exact ends (updateSfuHealth_safe alive now)
  | idleSince idleSinceUnix => exact ends (updateIdleSince_safe idleSinceUnix)
  | signalingIdleSince idleSinceUnix => exact ends (updateSfuIdleSince_safe idleSinceUnix)
  | assign roomId ownerId ownerHost ownerPort =>
      exact ends (assign_safe roomId ownerId ownerHost ownerPort)

/-- What a task knows of the record is kept by the others. -/
theorem recording_stable : (recording instanceId initial).Stable where
  start := by
    rintro ⟨world, log⟩ others phase program after ⟨rfl, rfl, update, rfl⟩ current
    refine ⟨Current.cons_none_iff.mpr current, (program_safe update).mono fun _ _ _ => ?_⟩
    exact fun _ _ current => Current.tail current
  discard _ _ _ never := never.elim
  environment := by
    rintro ⟨world, log⟩ others ⟨after, later⟩ ⟨same, kept⟩ current
    cases (show later = log from kept)
    exact Current.unchanged current same

/-- **No update is lost**, if the fields a call does not mean to change are, when it writes
the record back, as they were when it read the record. -/
theorem follows_of_reaches {world : World} {pool : (recordUpdates instanceId).Pool}
    (keyed : ∀ key record, world.redis.instances.lookup key = some record →
      record.instanceId = key)
    (stored : world.redis.instances.lookup instanceId = some initial)
    (run : Reaches (Unmoved instanceId) ⟨(world, []), []⟩ pool) :
    ∃ record, pool.state.1.redis.instances.lookup instanceId = some record ∧
      record.Follows initial pool.state.2 := by
  have start : Current instanceId initial (world, []) 0 :=
    ⟨keyed, ⟨initial, stored, rfl, rfl, rfl, rfl, rfl⟩, fun _ member =>
      absurd member (Multiset.notMem_zero _)⟩
  have opened : (recording instanceId initial).Holds ⟨(world, []), []⟩ := .of_quiescent start
  exact (opened.reaches recording_stable run).1.stored

end Calls

/-! ## An SFU that comes back to life -/

instance (instanceId : InstanceId) :
    ∀ state phase command others, Decidable (Unmoved instanceId state phase command others) := by
  intro (state : World × List Write) (phase : Option SfuInstance) command others
  unfold Unmoved
  split <;> infer_instance

/-- One outcome of each command, and what it writes. -/
def recordSampler (instanceId : InstanceId) : (recordUpdates instanceId).Sampler Hint where
  sample hint command state := (World.sample hint command.2 state.1).map fun outcome =>
    (outcome.1, outcome.2,
      state.2 ++ command.1.written instanceId state.1.redis command.2 outcome.1)
  sound := by
    intro hint command state reply after sampled
    obtain ⟨⟨answer, world⟩, found, same⟩ := Option.map_eq_some_iff.mp sampled
    cases same
    exact ⟨World.sample_sound found, rfl⟩

/-- A deployment with one SFU. -/
def withSfu : World :=
  { World.fresh with
    redis := { Redis.empty with
      instances := (∅ : Map InstanceId SfuInstance).insert "sfu-1" sampleSfu } }

/-- The store of the run has one record. -/
theorem withSfu_lookup (key : InstanceId) : withSfu.redis.instances.lookup key =
    if key = "sfu-1" then some sampleSfu else none := by
  refine (lookup_insert_if _ _ _ _).trans ?_
  rw [Finmap.lookup_empty]

/-- A probe finds the SFU dead, and its idle time begins. -/
def lastUpdates : List (recordUpdates "sfu-1").Thread :=
  [⟨none, ((Update.health false 60).program "sfu-1").marked (.health false 60)⟩,
    ⟨none, ((Update.idleSince 100).program "sfu-1").marked (.idleSince 100)⟩]

/-- The two updates are running from the start. -/
theorem reaches_lastUpdates {guard : (recordUpdates "sfu-1").Guard} :
    Reaches guard ⟨(withSfu, []), []⟩ ⟨(withSfu, []), lastUpdates⟩ := by
  refine reaches_start fun thread member others => ⟨rfl, ?_⟩
  simp only [lastUpdates, List.mem_cons, List.not_mem_nil, or_false] at member
  rcases member with rfl | rfl
  · exact ⟨rfl, _, rfl⟩
  · exact ⟨rfl, _, rfl⟩

/-- One update after the other. -/
theorem follows_of_reaches_both : ∃ pool,
    Reaches (Unmoved "sfu-1") ⟨(withSfu, []), []⟩ pool ∧ pool.Quiescent ∧
    pool.state.2 = [.health { alive := false, state := "ready", lastPingUnix := 0 },
      .idleSince 100] ∧
    ∃ record, pool.state.1.redis.instances.lookup "sfu-1" = some record ∧
      record.Follows sampleSfu pool.state.2 := by
  have replayed : ((recordSampler "sfu-1").replay (Unmoved "sfu-1") (turns 0 6)
      ⟨(withSfu, []), lastUpdates⟩).any (fun pool => pool.threads.isEmpty ∧
        pool.state.2 = [.health { alive := false, state := "ready", lastPingUnix := 0 },
          .idleSince 100]) = true := by
    decide +kernel
  obtain ⟨pool, run, passed⟩ := Sampler.exists_of_replay replayed
  obtain ⟨quiescent, written⟩ := of_decide_eq_true passed
  have run := reaches_lastUpdates.trans run
  refine ⟨pool, run, List.isEmpty_iff.mp quiescent, written, follows_of_reaches ?_ ?_ run⟩
  · intro key record found
    rw [withSfu_lookup] at found
    split at found
    · rename_i same
      cases found
      exact same.symm
    · cases found
  · rw [withSfu_lookup, if_pos rfl]

/-- **The probe's finding is lost**: the idle update has read the record before the probe
writes it, and writes it back afterwards. -/
theorem health_overwritten : ∃ pool : (recordUpdates "sfu-1").Pool,
    Reaches unguarded ⟨(withSfu, []), []⟩ pool ∧ pool.Quiescent ∧
    ¬ ∃ record, pool.state.1.redis.instances.lookup "sfu-1" = some record ∧
      record.Follows sampleSfu pool.state.2 := by
  have replayed : ((recordSampler "sfu-1").replay unguarded (turns 1 1 ++ turns 0 3 ++ turns 0 2)
      ⟨(withSfu, []), lastUpdates⟩).any (fun pool => pool.threads.isEmpty ∧
        (pool.state.1.redis.instances.lookup "sfu-1").map SfuInstance.alive = some true ∧
        (lastHealth sampleSfu.health pool.state.2).alive = false) = true := by
    decide +kernel
  obtain ⟨pool, run, passed⟩ := Sampler.exists_of_replay replayed
  obtain ⟨quiescent, revived, dead⟩ := of_decide_eq_true passed
  refine ⟨pool, reaches_lastUpdates.trans run, List.isEmpty_iff.mp quiescent, ?_⟩
  rintro ⟨record, found, follows⟩
  rw [found] at revived
  rw [← follows.health] at dead
  cases dead.symm.trans (Option.some.inj revived)

end Callifornia
