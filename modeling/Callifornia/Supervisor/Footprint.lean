import Callifornia.Signaling.Footprint
import Callifornia.Supervisor.Probes

/-! # The steps the supervisor's operations consist of -/

namespace Callifornia.Supervisor

open Concurrency Concurrency.Program Store Signaling

variable {allowed : Op → Prop} {config : Config}

theorem logged_only {call : StoreCall Unit} (only : call.run.Only allowed) :
    (logged call).Only allowed :=
  Only.bind only fun _ => trivial

theorem scanFrom_only {pattern : ScanPattern} {bound : ℕ} {cursor : Cursor}
    {results : List String} (scans : ∀ cursor, allowed (.redis (.scan pattern cursor)))
    (ends : allowed .outOfFuel) : (scanFrom pattern bound cursor results).run.Only allowed := by
  induction bound generalizing cursor results with
  | zero => exact ⟨ends, fun reply => reply.elim⟩
  | succ bound ih =>
      refine (redisCommand_only (scans cursor)).except_bind fun page => ?_
      cases page.2 with
      | none => trivial
      | some rest => exact ih

theorem updateIdleSince_only {instanceId : InstanceId} {time : ℤ}
    (reads : allowed (.redis (.hgetInstance instanceId)))
    (writes : ∀ key record, allowed (.redis (.hsetInstance key record))) :
    (updateIdleSince instanceId time).run.Only allowed := by
  refine (redisCommand_only reads).except_bind fun payload => ?_
  cases payload with
  | none => trivial
  | some record => exact redisCommand_only (writes _ _)

theorem decrementSfuRoomLoad_only {instanceId : InstanceId}
    (reads : allowed (.redis (.zscore .roomLoad instanceId)))
    (writes : ∀ score, allowed (.redis (.zadd .roomLoad instanceId score)))
    (clock : allowed .unixNow) (record : allowed (.redis (.hgetInstance instanceId)))
    (update : ∀ key record, allowed (.redis (.hsetInstance key record))) :
    (decrementSfuRoomLoad instanceId).run.Only allowed := by
  refine (redisCommand_only reads).except_bind fun current => ?_
  refine (redisCommand_only (writes _)).except_bind fun _ => ?_
  split
  · exact ⟨clock, fun now => updateIdleSince_only record update⟩
  · trivial

theorem notifyOwner_only {ownerId : NodeId} {sfuGrpcAddr : Address}
    (asks : ∀ task, allowed (.closeRoomsBySfu task)) :
    (notifyOwner config ownerId sfuGrpcAddr).Only allowed := by
  unfold notifyOwner
  split
  · trivial
  · split
    · trivial
    · exact ⟨asks _, fun _ => trivial⟩

theorem reclaimRoom_only {roomId : RoomId} {binding : RoomBinding}
    (slot : ∀ instanceId, (decrementSfuRoomLoad instanceId).run.Only allowed)
    (unbinds : allowed (.redis (.del (.binding roomId))))
    (clears : allowed (.redis (.delMembers roomId))) :
    (reclaimRoom roomId binding).Only allowed := by
  have release : (releaseSlot binding.sfuInstanceId).Only allowed := by
    cases binding.sfuInstanceId with
    | none => trivial
    | some instanceId => exact logged_only (slot instanceId)
  refine Only.bind release fun _ => ?_
  exact Only.bind (logged_only (redisCommand_drop_only unbinds)) fun _ =>
    logged_only (redisCommand_drop_only clears)

theorem reclaimIfStale_only {alive : List NodeId} {roomId : RoomId}
    (reads : allowed (.redis (.hgetall (.binding roomId))))
    (slot : ∀ instanceId, (decrementSfuRoomLoad instanceId).run.Only allowed)
    (unbinds : allowed (.redis (.del (.binding roomId))))
    (clears : allowed (.redis (.delMembers roomId))) :
    (reclaimIfStale alive roomId).run.Only allowed := by
  refine Only.except_bind ((redisCommand_only reads).except_bind fun _ => trivial) fun found => ?_
  cases found with
  | none => trivial
  | some binding =>
      change (if binding.ownerId = "" ∨ binding.ownerId ∈ alive then _ else _ :
        StoreCall Unit).run.Only allowed
      split
      · trivial
      · exact Only.lift (reclaimRoom_only slot unbinds clears)

theorem deleteIfOrphan_only {bindingIds : List RoomId} {roomId : RoomId}
    (clears : allowed (.redis (.delMembers roomId))) :
    (deleteIfOrphan bindingIds roomId).run.Only allowed := by
  unfold deleteIfOrphan
  split
  · trivial
  · exact Only.lift (logged_only (redisCommand_drop_only clears))

theorem removeLoadIfStale_only {alive : List NodeId} {nodeId : NodeId}
    (removes : allowed (.redis (.zrem .instanceLoad nodeId))) :
    (removeLoadIfStale alive nodeId).run.Only allowed := by
  unfold removeLoadIfStale
  split
  · trivial
  · exact Only.lift (logged_only (redisCommand_only removes))

theorem deleteSessionIfStale_only {alive : List NodeId} {sessionId : SessionId}
    (reads : allowed (.redis (.hget (.session sessionId) "signaling_owner_id")))
    (deletes : allowed (.redis (.del (.session sessionId)))) :
    (deleteSessionIfStale alive sessionId).run.Only allowed := by
  refine Only.except_bind ((redisCommand_only reads).except_bind fun _ => trivial) fun owner => ?_
  cases owner with
  | none => trivial
  | some owner =>
      change (if owner ∈ alive then _ else _ : StoreCall Unit).run.Only allowed
      split
      · trivial
      · exact Only.lift (logged_only (redisCommand_drop_only deletes))

end Callifornia.Supervisor
