import Callifornia.Runs
import Callifornia.Supervisor.Footprint

/-! # The supervisor's passes running alone

What the store holds after `handle_dead_sfu` and after one janitor iteration, when
no other service takes a step and no command fails.
-/

namespace Callifornia.Supervisor

open Concurrency Concurrency.Program FiniteMap Store Signaling

/-! ## What a binding and a session say -/

/-- The owner a binding or a session names; empty when it names none. -/
def owner (hash : Hash) : NodeId := (hash.get "signaling_owner_id").getD ""

/-- The SFU instance a binding names. -/
def instanceOf (binding : Hash) : Option InstanceId :=
  (binding.get "sfu_instance_id").filter (· ≠ "")

/-- The SFU address a binding names. -/
def addressOf (binding : Hash) : Option Address :=
  (binding.get "sfu_grpc_addr").filter (· ≠ "")

/-- The node's last heartbeat is recent enough for `alive_signaling_nodes`. -/
def Alive (staleSecs : ℕ) (world : World) (nodeId : NodeId) : Prop :=
  ∃ score ∈ (world.redis.scores .signalingNodes).lookup nodeId,
    ((world.now / 1000 : ℕ) : ℤ) - staleSecs ≤ score

instance (staleSecs : ℕ) (world : World) (nodeId : NodeId) :
    Decidable (Alive staleSecs world nodeId) :=
  inferInstanceAs (Decidable (∃ score ∈ _, _))

/-- The owner is named and not alive. -/
def Dead (staleSecs : ℕ) (world : World) (hash : Hash) : Prop :=
  owner hash ≠ "" ∧ ¬ Alive staleSecs world (owner hash)

instance (staleSecs : ℕ) (world : World) (hash : Hash) : Decidable (Dead staleSecs world hash) :=
  inferInstanceAs (Decidable (_ ∧ _))

variable {config : Config} {world after : World}

/-! ## Reads -/

/-- The nodes that are read as alive are those whose heartbeat is recent enough. -/
theorem aliveSignalingNodes_runs {staleSecs : ℕ} {result : Except Failure (List NodeId)}
    (run : (aliveSignalingNodes staleSecs).run.Runs World.exec world result after) :
    after = world ∧ ∃ alive, result = .ok alive ∧
      ∀ nodeId, nodeId ∈ alive ↔ Alive staleSecs world nodeId := by
  obtain ⟨now, middle, clock, read⟩ := runs_lift_bind.mp run
  obtain ⟨rfl, rfl⟩ := runs_unixNow.mp clock
  obtain ⟨alive, redis, ⟨lists, same⟩, returned, rfl⟩ := runs_redisCommand.mp read
  refine ⟨by rw [same], alive, returned, fun nodeId => ?_⟩
  rw [lists.mem_iff, Finmap.mem_keys, Finmap.mem_iff]
  simp only [lookup_filter_eq_some]
  exact Iff.rfl

/-- A `SCAN` loop returns every key that is there, perhaps several times. -/
theorem scanFrom_runs {pattern : ScanPattern} {bound : ℕ} {cursor : Cursor}
    {results : List String} {result : Except Failure (List String)}
    (run : (scanFrom pattern bound cursor results).run.Runs World.exec world result after) :
    after = world ∧ ∃ ids, result = .ok ids ∧ (∀ key ∈ results, key ∈ ids) ∧
      (∀ key ∈ ids, key ∈ results ∨ key ∈ world.redis.keys pattern) ∧
      ∀ key ∈ (cursor.map (· ∩ world.redis.keys pattern)).getD (world.redis.keys pattern),
        key ∈ ids := by
  induction bound generalizing cursor results with
  | zero =>
      obtain ⟨impossible, -⟩ := runs_lift_bind.mp run
      exact impossible.elim
  | succ bound ih =>
      obtain ⟨value, middle, read, rest⟩ := runs_except_bind.mp run
      obtain ⟨⟨page, next⟩, redis, ⟨⟨present, owed⟩, same⟩, rfl, rfl⟩ :=
        runs_redisCommand.mp read
      obtain rfl : redis = world.redis := same
      cases next with
      | none =>
          obtain ⟨rfl, rfl⟩ := rest
          refine ⟨rfl, _, rfl, fun key => List.mem_append_left _, fun key member => ?_,
            fun key due => ?_⟩
          · exact (List.mem_append.mp member).imp_right (present key)
          · refine List.mem_append_right _ (List.mem_toFinset.mp (by_contra fun missing => ?_))
            have left := Finset.mem_sdiff.mpr ⟨due, missing⟩
            rw [show _ = ∅ from owed] at left
            exact Finset.notMem_empty key left
      | some remaining =>
          obtain ⟨rfl, ids, rfl, kept, sound, complete⟩ := ih rest
          refine ⟨rfl, ids, rfl, fun key member => kept key (List.mem_append_left _ member),
            fun key member => ?_, fun key due => ?_⟩
          · rcases sound key member with earlier | now
            · exact (List.mem_append.mp earlier).imp_right (present key)
            · exact .inr now
          · by_cases seen : key ∈ page.toFinset
            · exact kept key (List.mem_append_right _ (List.mem_toFinset.mp seen))
            · have left := Finset.mem_sdiff.mpr ⟨due, seen⟩
              refine complete key (Finset.mem_inter.mpr ⟨?_, ?_⟩)
              · rwa [show remaining = _ from owed]
              · cases cursor with
                | none => exact due
                | some earlier => exact (Finset.mem_inter.mp due).2

/-- A whole `SCAN` loop. -/
theorem scan_runs {pattern : ScanPattern} {bound : ℕ} {result : Except Failure (List String)}
    (run : (scanFrom pattern bound none []).run.Runs World.exec world result after) :
    after = world ∧ ∃ ids, result = .ok ids ∧
      ∀ key, key ∈ ids ↔ key ∈ world.redis.keys pattern := by
  obtain ⟨same, ids, returned, -, sound, complete⟩ := scanFrom_runs run
  exact ⟨same, ids, returned, fun key =>
    ⟨fun member => (sound key member).resolve_left List.not_mem_nil, complete key⟩⟩

/-- The fields of a binding are read from its hash; an absent one is empty. -/
theorem ofFields_hash (roomId : RoomId) (hash : Hash) :
    ∃ binding, RoomBinding.ofFields roomId hash.fields = some binding ∧
      binding.ownerId = owner hash ∧ binding.sfuInstanceId = instanceOf hash ∧
      binding.sfuGrpcAddr = addressOf hash :=
  ⟨_, if_neg hash.nonempty, rfl, rfl, rfl⟩

/-- The binding of a room as `get_room_assignment` finds it. -/
theorem getRoomAssignment_runs {roomId : RoomId} {result : Except Failure (Option RoomBinding)}
    (run : (getRoomAssignment roomId).run.Runs World.exec world result after) :
    after = world ∧
      ((world.redis.bindings.lookup roomId = none ∧ result = .ok none) ∨
        ∃ hash binding, world.redis.bindings.lookup roomId = some hash ∧
          result = .ok (some binding) ∧ binding.ownerId = owner hash ∧
          binding.sfuInstanceId = instanceOf hash ∧ binding.sfuGrpcAddr = addressOf hash) := by
  obtain ⟨value, middle, read, rest⟩ := runs_except_bind.mp run
  obtain ⟨fields, redis, ⟨found, same⟩, rfl, rfl⟩ := runs_redisCommand.mp read
  obtain rfl : redis = world.redis := same
  obtain ⟨rfl, rfl⟩ := rest
  refine ⟨rfl, ?_⟩
  cases bound : world.redis.bindings.lookup roomId with
  | none =>
      refine .inl ⟨rfl, ?_⟩
      rw [found, show world.redis.hash (.binding roomId) = none from bound]
      rfl
  | some hash =>
      obtain ⟨binding, described, names⟩ := ofFields_hash roomId hash
      refine .inr ⟨hash, binding, rfl, ?_, names⟩
      rw [found, show world.redis.hash (.binding roomId) = some hash from bound]
      exact congrArg Except.ok described

/-- The owner of a session is read unless it is empty. -/
theorem getSessionOwner_runs {sessionId : SessionId} {result : Except Failure (Option NodeId)}
    (run : (getSessionOwner sessionId).run.Runs World.exec world result after) :
    after = world ∧ result = .ok (((world.redis.sessions.lookup sessionId).map
      fun session => owner session.hash).filter (· ≠ "")) := by
  obtain ⟨value, middle, read, rest⟩ := runs_except_bind.mp run
  obtain ⟨found, redis, ⟨reply, same⟩, rfl, rfl⟩ := runs_redisCommand.mp read
  obtain rfl : redis = world.redis := same
  obtain ⟨rfl, rfl⟩ := rest
  refine ⟨rfl, congrArg Except.ok ?_⟩
  rw [reply]
  change Option.filter _ (((world.redis.sessions.lookup sessionId).map SessionHash.hash).bind
    (·.get "signaling_owner_id")) = _
  cases world.redis.sessions.lookup sessionId with
  | none => rfl
  | some session =>
      change Option.filter _ (session.hash.get "signaling_owner_id") =
        Option.filter _ (some ((session.hash.get "signaling_owner_id").getD ""))
      cases session.hash.get "signaling_owner_id" with
      | none => rfl
      | some name => rfl

/-! ## Reclaiming rooms -/

/-- A load after some decrements. -/
def lessened (score : ℤ) (count : ℕ) : ℤ := if count = 0 then score else max 0 (score - count)

/-- One more release lowers a score once more, down to zero. -/
theorem decremented_lessened (current : Option ℤ) (score : ℤ) (count : ℕ)
    (same : current.getD 0 = lessened score count) :
    decremented current = lessened score (count + 1) := by
  unfold decremented
  rw [same]
  unfold lessened
  split <;> split <;> simp <;> omega

/-- The store after the slot of a binding has been released. -/
def slotReleased (store : Redis) : Option InstanceId → Redis
  | some instanceId =>
      store.zadd .roomLoad instanceId (decremented ((store.scores .roomLoad).lookup instanceId))
  | none => store

/-- Run an operation whose failure is ignored. -/
theorem logged_runs {call : StoreCall Unit} :
    (logged call).Runs World.exec world () after ↔
      ∃ result, call.run.Runs World.exec world result after := by
  constructor
  · intro run
    obtain ⟨result, middle, called, -, rfl⟩ := runs_bind.mp run
    exact ⟨result, called⟩
  · intro ⟨result, called⟩
    exact runs_bind.mpr ⟨result, after, called, rfl, rfl⟩

/-- Marking an instance changes its record only. -/
theorem updateIdleSince_runs {instanceId : InstanceId} {time : ℤ} {result : Except Failure Unit}
    (run : (updateIdleSince instanceId time).run.Runs World.exec world result after) :
    ∃ instances, after = { world with redis := { world.redis with instances } } := by
  obtain ⟨value, middle, read, rest⟩ := runs_except_bind.mp run
  obtain ⟨found, redis, ⟨-, same⟩, rfl, rfl⟩ := runs_redisCommand.mp read
  obtain rfl : redis = world.redis := same
  cases found with
  | none =>
      obtain ⟨-, rfl⟩ := rest
      exact ⟨_, rfl⟩
  | some record =>
      obtain ⟨_, redis, saved, -, rfl⟩ := runs_redisCommand.mp rest
      exact ⟨_, by rw [show redis = _ from saved]⟩

/-- A release changes one load and one record. -/
theorem decrementSfuRoomLoad_runs {instanceId : InstanceId} {result : Except Failure Unit}
    (run : (decrementSfuRoomLoad instanceId).run.Runs World.exec world result after) :
    ∃ instances, after =
      { world with redis := { slotReleased world.redis (some instanceId) with instances } } := by
  obtain ⟨value, middle, read, rest⟩ := runs_except_bind.mp run
  obtain ⟨current, redis, ⟨reply, same⟩, rfl, rfl⟩ := runs_redisCommand.mp read
  obtain rfl : redis = world.redis := same
  obtain ⟨value, middle, write, rest⟩ := runs_except_bind.mp rest
  obtain ⟨_, redis, effect, rfl, rfl⟩ := runs_redisCommand.mp write
  obtain rfl : redis = slotReleased world.redis (some instanceId) := by
    rw [show redis = _ from effect, reply]
    rfl
  change (if decremented current = 0 then _ else _ : StoreCall Unit).run.Runs _ _ _ _ at rest
  split at rest
  · obtain ⟨time, middle, clock, update⟩ := runs_lift_bind.mp rest
    obtain ⟨-, rfl⟩ := runs_unixNow.mp clock
    exact updateIdleSince_runs update
  · obtain ⟨-, rfl⟩ := rest
    exact ⟨_, rfl⟩

/-- The store after `reclaim` of a room, but for the SFU records. -/
def reclaimed (store : Redis) (roomId : RoomId) (instanceId : Option InstanceId) : Redis :=
  { slotReleased store instanceId with
    bindings := store.bindings.erase roomId
    members := store.members.filter (·.1 ≠ roomId) }

/-- A release keeps the bindings. -/
theorem slotReleased_bindings (store : Redis) (instanceId : Option InstanceId) :
    (slotReleased store instanceId).bindings = store.bindings := by
  cases instanceId <;> rfl

/-- A release keeps the members. -/
theorem slotReleased_members (store : Redis) (instanceId : Option InstanceId) :
    (slotReleased store instanceId).members = store.members := by
  cases instanceId <;> rfl

/-- The slot that a binding names is released, if it names one. -/
theorem releaseSlot_runs {instanceId : Option InstanceId}
    (run : (releaseSlot instanceId).Runs World.exec world () after) :
    ∃ instances, after =
      { world with redis := { slotReleased world.redis instanceId with instances } } := by
  cases instanceId with
  | none =>
      obtain ⟨-, rfl⟩ := run
      exact ⟨_, rfl⟩
  | some instanceId =>
      obtain ⟨result, run⟩ := logged_runs.mp run
      exact decrementSfuRoomLoad_runs run

/-- A binding is deleted. -/
theorem deleteRoomAssignment_runs {roomId : RoomId} {result : Except Failure Unit}
    (run : (deleteRoomAssignment roomId).run.Runs World.exec world result after) :
    after = { world with
      redis := { world.redis with bindings := world.redis.bindings.erase roomId } } := by
  obtain ⟨value, middle, command, rest⟩ := runs_except_bind.mp run
  obtain ⟨_, redis, ⟨-, effect⟩, rfl, rfl⟩ := runs_redisCommand.mp command
  obtain ⟨-, rfl⟩ := rest
  rw [effect]
  rfl

/-- The members of a room are deleted. -/
theorem deleteSignalingRoomMembers_runs {roomId : RoomId} {result : Except Failure Unit}
    (run : (deleteSignalingRoomMembers roomId).run.Runs World.exec world result after) :
    after = { world with
      redis := { world.redis with
        members := world.redis.members.filter (·.1 ≠ roomId) } } := by
  obtain ⟨value, middle, command, rest⟩ := runs_except_bind.mp run
  obtain ⟨_, redis, ⟨-, effect⟩, rfl, rfl⟩ := runs_redisCommand.mp command
  obtain ⟨-, rfl⟩ := rest
  rw [effect]

/-- Reclaiming a room releases its slot and deletes its binding and its members. -/
theorem reclaimRoom_runs {roomId : RoomId} {binding : RoomBinding}
    (run : (reclaimRoom roomId binding).Runs World.exec world () after) :
    ∃ instances, after = { world with
      redis := { reclaimed world.redis roomId binding.sfuInstanceId with instances } } := by
  obtain ⟨_, middle, release, rest⟩ := runs_bind.mp run
  obtain ⟨instances, rfl⟩ := releaseSlot_runs release
  obtain ⟨_, middle, unbind, clear⟩ := runs_bind.mp rest
  obtain ⟨_, unbind⟩ := logged_runs.mp unbind
  rw [deleteRoomAssignment_runs unbind] at clear
  obtain ⟨_, clear⟩ := logged_runs.mp clear
  rw [deleteSignalingRoomMembers_runs clear]
  refine ⟨instances, ?_⟩
  simp only [reclaimed, slotReleased_bindings, slotReleased_members]

/-- `after` is `before` with these rooms reclaimed. -/
structure Reclaims (before after : Redis) (rooms : Finset RoomId) : Prop where
  bindings : ∀ roomId, after.bindings.lookup roomId =
    if roomId ∈ rooms then none else before.bindings.lookup roomId
  members : ∀ roomId nickname, (roomId, nickname) ∈ after.members ↔
    roomId ∉ rooms ∧ (roomId, nickname) ∈ before.members
  load : ∀ instanceId, after.score .roomLoad instanceId =
    lessened (before.score .roomLoad instanceId) (rooms.filter fun roomId =>
      (before.bindings.lookup roomId).bind instanceOf = some instanceId).card
  scores : ∀ set, set ≠ .roomLoad → after.scores set = before.scores set
  sessions : after.sessions = before.sessions

namespace Reclaims

variable {before middle : Redis} {rooms : Finset RoomId}

/-- Nothing has been reclaimed yet. -/
theorem refl (before : Redis) : Reclaims before before ∅ where
  bindings roomId := (if_neg (Finset.notMem_empty roomId)).symm
  members roomId nickname := (and_iff_right (Finset.notMem_empty roomId)).symm
  load instanceId := by
    rw [Finset.filter_empty, Finset.card_empty]
    exact (if_pos rfl).symm
  scores _ _ := rfl
  sessions := rfl

/-- The rooms that are left are those that were not reclaimed. -/
theorem mem_bindings (reclaims : Reclaims before middle rooms) (roomId : RoomId) :
    roomId ∈ middle.bindings ↔ roomId ∉ rooms ∧ roomId ∈ before.bindings := by
  rw [Finmap.mem_iff, Finmap.mem_iff, reclaims.bindings]
  by_cases gone : roomId ∈ rooms <;> simp [gone]

/-- One more room is reclaimed. -/
theorem insert (reclaims : Reclaims before middle rooms) {roomId : RoomId} {hash : Hash}
    (fresh : roomId ∉ rooms) (found : before.bindings.lookup roomId = some hash)
    (instances : Map InstanceId SfuInstance) :
    Reclaims before { reclaimed middle roomId (instanceOf hash) with instances }
      (insert roomId rooms) where
  bindings query := by
    change (middle.bindings.erase roomId).lookup query = _
    rw [lookup_erase_if, reclaims.bindings]
    by_cases same : query = roomId
    · simp [same]
    · simp [same]
  members query nickname := by
    change (query, nickname) ∈ middle.members.filter (·.1 ≠ roomId) ↔ _
    rw [Finset.mem_filter, reclaims.members, Finset.mem_insert]
    tauto
  load query := by
    change (slotReleased middle (instanceOf hash)).score .roomLoad query = _
    rw [Finset.filter_insert, found, Option.bind_some]
    have before := reclaims.load query
    cases named : instanceOf hash with
    | none => simpa [slotReleased] using before
    | some instanceId =>
        rw [slotReleased, Redis.score_zadd]
        by_cases same : query = instanceId
        · subst same
          rw [if_pos rfl, if_pos rfl, Finset.card_insert_of_notMem
            fun member => fresh (Finset.mem_filter.mp member).1]
          exact decremented_lessened _ _ _ before
        · rw [if_neg same, if_neg fun named => same (Option.some.inj named).symm]
          exact before
  scores set other := by
    change (slotReleased middle (instanceOf hash)).scores set = _
    rw [← reclaims.scores set other]
    cases instanceOf hash with
    | none => rfl
    | some instanceId => exact Function.update_of_ne other _ _
  sessions := by
    change (slotReleased middle (instanceOf hash)).sessions = _
    rw [← reclaims.sessions]
    cases instanceOf hash <;> rfl

end Reclaims

section Visits

variable {before middle store : Redis} {gone : Hash → Prop} [DecidablePred gone]

/-- The rooms of a list whose binding is to go. -/
def reclaimable (before : Redis) (gone : Hash → Prop) [DecidablePred gone]
    (rooms : List RoomId) : Finset RoomId :=
  rooms.toFinset.filter fun roomId => ∃ hash ∈ before.bindings.lookup roomId, gone hash

/-- A scanned room is reclaimed if its binding says so. -/
theorem mem_reclaimable {rooms : List RoomId} {roomId : RoomId} :
    roomId ∈ reclaimable before gone rooms ↔ roomId ∈ rooms ∧
      ∃ hash, before.bindings.lookup roomId = some hash ∧ gone hash := by
  rw [reclaimable, Finset.mem_filter, List.mem_toFinset]
  exact Iff.rfl

/-- One more room is reclaimed. -/
theorem reclaimable_cons_of_gone {rooms : List RoomId} {roomId : RoomId} {hash : Hash}
    (found : before.bindings.lookup roomId = some hash) (goes : gone hash) :
    reclaimable before gone (roomId :: rooms) = insert roomId (reclaimable before gone rooms) := by
  ext query
  rw [Finset.mem_insert, mem_reclaimable, mem_reclaimable, List.mem_cons]
  constructor
  · intro ⟨visited, bound⟩
    exact visited.imp_right fun visited => ⟨visited, bound⟩
  · intro visited
    rcases visited with rfl | ⟨visited, bound⟩
    · exact ⟨.inl rfl, hash, found, goes⟩
    · exact ⟨.inr visited, bound⟩

/-- One more room is left. -/
theorem reclaimable_cons_of_stays {rooms : List RoomId} {roomId : RoomId}
    (stays : roomId ∈ reclaimable before gone rooms ∨
      ∀ hash, before.bindings.lookup roomId = some hash → ¬ gone hash) :
    reclaimable before gone (roomId :: rooms) = reclaimable before gone rooms := by
  ext query
  rw [mem_reclaimable, mem_reclaimable, List.mem_cons]
  constructor
  · intro ⟨visited, hash, found, goes⟩
    rcases visited with rfl | visited
    · rcases stays with already | stays
      · exact mem_reclaimable.mp already
      · exact absurd goes (stays hash found)
    · exact ⟨visited, hash, found, goes⟩
  · intro ⟨visited, bound⟩
    exact ⟨.inr visited, bound⟩

/-- A room whose binding is to stay, or is not there any more, is skipped. -/
theorem Reclaims.skip {rooms : List RoomId} {roomId : RoomId}
    (reclaims : Reclaims before middle (reclaimable before gone rooms))
    (stays : ∀ hash, middle.bindings.lookup roomId = some hash → ¬ gone hash) :
    Reclaims before middle (reclaimable before gone (roomId :: rooms)) := by
  rw [reclaimable_cons_of_stays]
  · exact reclaims
  · by_cases already : roomId ∈ reclaimable before gone rooms
    · exact .inl already
    · have same := reclaims.bindings roomId
      rw [if_neg already] at same
      exact .inr fun hash found => stays hash (same.trans found)

/-- A room whose binding is to go is reclaimed. -/
theorem Reclaims.visit {rooms : List RoomId} {roomId : RoomId} {hash : Hash}
    (reclaims : Reclaims before middle (reclaimable before gone rooms))
    (found : middle.bindings.lookup roomId = some hash) (goes : gone hash)
    (instances : Map InstanceId SfuInstance) :
    Reclaims before { reclaimed middle roomId (instanceOf hash) with instances }
      (reclaimable before gone (roomId :: rooms)) := by
  have same := reclaims.bindings roomId
  rw [found] at same
  split at same
  · cases same
  · rename_i fresh
    rw [reclaimable_cons_of_gone same.symm goes]
    exact reclaims.insert fresh same.symm instances

end Visits

/-- What a pass over bindings has done so far. -/
def Reclaiming (world : World) (gone : Hash → Prop) [DecidablePred gone] (rooms : List RoomId)
    (now : World) : Prop :=
  ∃ redis, now = { world with redis } ∧
    Reclaims world.redis redis (reclaimable world.redis gone rooms)

/-! ## `handle_dead_sfu` -/

/-- The effect of a step while no signaling node can be reached. -/
def execUnreachable : (op : Op) → World → op.Reply → World → Prop
  | .closeRoomsBySfu _, world, reply, after => reply = false ∧ after = world
  | op, world, reply, after => World.exec op world reply after

/-- The step asks a signaling node to close rooms. -/
def AsksNode : Op → Prop
  | .closeRoomsBySfu _ => True
  | _ => False

/-- A program that asks no node runs as ever. -/
theorem runs_unreachable {α : Type} {program : Call α} {result : α}
    (only : program.Only fun op => ¬ AsksNode op) :
    program.Runs execUnreachable world result after ↔
      program.Runs World.exec world result after := by
  refine only.runs_congr fun op before reply after quiet => ?_
  cases op with
  | closeRoomsBySfu => exact absurd trivial quiet
  | _ => exact Iff.rfl

/-- Nobody is reached, so nothing changes. -/
theorem notifyOwner_runs {ownerId : NodeId} {sfuGrpcAddr : Address}
    (run : (notifyOwner config ownerId sfuGrpcAddr).Runs execUnreachable world () after) :
    after = world := by
  unfold notifyOwner at run
  split at run
  · exact run.2
  · split at run
    · exact run.2
    · obtain ⟨_, _, ⟨-, rfl⟩, -, rfl⟩ := run
      rfl

/-- Reclaiming a room calls no node. -/
theorem reclaimRoom_quiet (roomId : RoomId) (binding : RoomBinding) :
    (reclaimRoom roomId binding).Only fun op => ¬ AsksNode op :=
  reclaimRoom_only (fun _ => decrementSfuRoomLoad_only id (fun _ => id) id id fun _ _ => id) id id

/-- A room on a dead SFU is reclaimed when its owner cannot be reached. -/
theorem closeDeadSfuRoom_runs {before : World} {sfuGrpcAddr : Address} {roomId : RoomId}
    {rooms : List RoomId}
    (done : Reclaiming before (fun hash => addressOf hash = some sfuGrpcAddr) rooms world)
    (run : (closeDeadSfuRoom config sfuGrpcAddr roomId).Runs execUnreachable world () after) :
    Reclaiming before (fun hash => addressOf hash = some sfuGrpcAddr) (roomId :: rooms) after := by
  obtain ⟨redis, rfl, reclaims⟩ := done
  obtain ⟨value, middle, read, rest⟩ := runs_bind.mp run
  have quiet : (getRoomAssignment roomId).run.Only fun op => ¬ AsksNode op :=
    (redisCommand_only id).except_bind fun _ => trivial
  obtain ⟨rfl, outcome⟩ := getRoomAssignment_runs ((runs_unreachable quiet).mp read)
  rcases outcome with ⟨absent, rfl⟩ | ⟨hash, binding, found, rfl, -, named, addressed⟩
  · obtain ⟨-, rfl⟩ := rest
    refine ⟨redis, rfl, reclaims.skip fun hash found => ?_⟩
    cases absent.symm.trans found
  · change (if binding.sfuGrpcAddr ≠ some sfuGrpcAddr then _ else _ :
      Call Unit).Runs _ _ _ _ at rest
    rw [addressed] at rest
    split at rest
    · rename_i elsewhere
      obtain ⟨-, rfl⟩ := rest
      refine ⟨redis, rfl, reclaims.skip fun other same => ?_⟩
      obtain rfl : hash = other := Option.some.inj (found.symm.trans same)
      exact elsewhere
    · rename_i there
      obtain ⟨_, middle, notify, reclaim⟩ := runs_bind.mp rest
      rw [notifyOwner_runs notify] at reclaim
      obtain ⟨instances, rfl⟩ :=
        reclaimRoom_runs ((runs_unreachable (reclaimRoom_quiet _ _)).mp reclaim)
      refine ⟨_, rfl, ?_⟩
      rw [named]
      exact reclaims.visit found (not_not.mp there) instances

/-- **What `handle_dead_sfu` leaves**, when no signaling node can be reached. -/
theorem handleDeadSfu_runs {sfuGrpcAddr : Address}
    (run : (handleDeadSfu config sfuGrpcAddr).Runs execUnreachable world () after) :
    Reclaims world.redis after.redis (world.redis.bindings.keys.filter fun roomId =>
      ∃ hash ∈ world.redis.bindings.lookup roomId, addressOf hash = some sfuGrpcAddr) := by
  obtain ⟨value, middle, read, rest⟩ := runs_bind.mp run
  have quiet : (scanRoomBindingIds config.loopBound).run.Only fun op => ¬ AsksNode op :=
    scanFrom_only (fun _ => id) id
  obtain ⟨rfl, ids, rfl, all⟩ := scan_runs ((runs_unreachable quiet).mp read)
  have start : Reclaiming middle (fun hash => addressOf hash = some sfuGrpcAddr) [] middle :=
    ⟨_, rfl, .refl _⟩
  obtain ⟨redis, rfl, reclaims⟩ := runs_forM
    (fun done roomId before after _ kept run => closeDeadSfuRoom_runs kept run) start rest
  convert reclaims using 1
  ext roomId
  rw [mem_reclaimable, List.append_nil, List.mem_reverse, all, Finset.mem_filter]
  exact Iff.rfl

end Callifornia.Supervisor
