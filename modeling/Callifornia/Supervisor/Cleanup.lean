import Callifornia.Concurrency.Faults
import Callifornia.Replay
import Callifornia.Supervisor.Janitor

/-! # What the supervisor's passes remove

A janitor iteration is meant to remove what belongs to dead nodes and nothing else,
and neither it nor `handle_dead_sfu` is meant to leave a session in a room that is
gone. The first fails for a node whose heartbeat is exactly at the cutoff, the
second for a session that survives the owner or the SFU of its room.
-/

namespace Callifornia.Supervisor

open Concurrency Concurrency.Program FiniteMap Store Signaling

variable {config : Config} {world after : World}

/-! ## Exactness -/

/-- The earliest heartbeat that still counts as alive. -/
def cutoff (staleSecs : ℕ) (world : World) : ℤ := ((world.now / 1000 : ℕ) : ℤ) - staleSecs

/-- Exactly what belongs to dead nodes is gone, and the loads of the SFUs have dropped
by the reclaimed bindings. What has no owner counts as not dead. -/
structure Exact (staleSecs : ℕ) (before after : World) : Prop where
  bindings : ∀ roomId hash, after.redis.bindings.lookup roomId = some hash →
    ¬ Dead staleSecs before hash
  members : ∀ roomId nickname, (roomId, nickname) ∈ after.redis.members →
    roomId ∈ after.redis.bindings
  loads : ∀ nodeId ∈ after.redis.scores .instanceLoad, Alive staleSecs before nodeId
  sessions : ∀ sessionId session, after.redis.sessions.lookup sessionId = some session →
    ¬ Dead staleSecs before session.hash
  roomLoad : ∀ instanceId, after.redis.score .roomLoad instanceId =
    lessened (before.redis.score .roomLoad instanceId)
      ((deadRooms staleSecs before).filter fun roomId =>
        (before.redis.bindings.lookup roomId).bind instanceOf = some instanceId).card
  keptHeartbeats : ∀ nodeId, Alive staleSecs before nodeId →
    (after.redis.scores .signalingNodes).lookup nodeId =
      (before.redis.scores .signalingNodes).lookup nodeId
  keptLoads : ∀ nodeId, Alive staleSecs before nodeId →
    (after.redis.scores .instanceLoad).lookup nodeId =
      (before.redis.scores .instanceLoad).lookup nodeId
  keptBindings : ∀ roomId hash, before.redis.bindings.lookup roomId = some hash →
    ¬ Dead staleSecs before hash → after.redis.bindings.lookup roomId = some hash ∧
      ∀ nickname, (roomId, nickname) ∈ after.redis.members ↔
        (roomId, nickname) ∈ before.redis.members
  keptSessions : ∀ sessionId session, before.redis.sessions.lookup sessionId = some session →
    ¬ Dead staleSecs before session.hash →
      after.redis.sessions.lookup sessionId = some session

/-- The bindings that are left when the rooms of the bindings that go are reclaimed. -/
theorem lookup_left {before after : Map RoomId Hash} {rooms : Finset RoomId} {goes : Hash → Prop}
    (all : ∀ roomId, roomId ∈ rooms ↔
      roomId ∈ before.keys ∧ ∃ hash ∈ before.lookup roomId, goes hash)
    (left : ∀ roomId, after.lookup roomId =
      if roomId ∈ rooms then none else before.lookup roomId) {roomId : RoomId} {hash : Hash} :
    after.lookup roomId = some hash ↔ before.lookup roomId = some hash ∧ ¬ goes hash := by
  rw [left]
  split
  · rename_i gone
    obtain ⟨-, other, found, gone⟩ := (all roomId).mp gone
    refine iff_of_false nofun fun ⟨same, stays⟩ => stays ?_
    rwa [← Option.some.inj (found.symm.trans same)]
  · rename_i stays
    refine (and_iff_left_of_imp fun found gone =>
      stays ((all roomId).mpr ⟨?_, hash, found, gone⟩)).symm
    exact Finmap.mem_keys.mpr (Finmap.mem_of_lookup_eq_some found)

namespace Janitored

variable {staleSecs : ℕ} (janitored : Janitored staleSecs world after)

include janitored

theorem lookup_binding {roomId : RoomId} {hash : Hash} :
    after.redis.bindings.lookup roomId = some hash ↔
      world.redis.bindings.lookup roomId = some hash ∧ ¬ Dead staleSecs world hash :=
  lookup_left (fun _ => Finset.mem_filter) janitored.reclaims

theorem lookup_session {sessionId : SessionId} {session : SessionHash} :
    after.redis.sessions.lookup sessionId = some session ↔
      world.redis.sessions.lookup sessionId = some session ∧
        ¬ Dead staleSecs world session.hash := by
  rw [janitored.sessions, Option.filter_eq_some_iff, decide_eq_true_eq]

/-- The compaction keeps an alive node's heartbeat unless it is exactly the cutoff. -/
theorem keeps_heartbeat_iff (nodeId : NodeId) :
    (Alive staleSecs world nodeId → (after.redis.scores .signalingNodes).lookup nodeId =
      (world.redis.scores .signalingNodes).lookup nodeId) ↔
      (world.redis.scores .signalingNodes).lookup nodeId ≠ some (cutoff staleSecs world) := by
  rw [janitored.heartbeats]
  unfold Alive cutoff
  cases (world.redis.scores .signalingNodes).lookup nodeId with
  | none => simp
  | some score =>
      by_cases recent : ((world.now / 1000 : ℕ) : ℤ) - staleSecs < score
      · simp only [Option.filter, recent, decide_true, ↓reduceIte, implies_true, true_iff]
        exact fun same => recent.ne (Option.some.inj same).symm
      · simp only [Option.filter, recent, decide_false, Bool.false_eq_true, ↓reduceIte,
          Option.mem_def, Option.some.injEq, exists_eq_left', reduceCtorEq, imp_false, ne_eq]
        exact not_congr ⟨fun old => le_antisymm (not_lt.mp recent) old, fun same => same.ge⟩

/-- Apart from the heartbeats an iteration is exact. -/
theorem exact_iff : Exact staleSecs world after ↔
    ∀ nodeId, (world.redis.scores .signalingNodes).lookup nodeId ≠
      some (cutoff staleSecs world) := by
  constructor
  · intro exact nodeId
    exact (janitored.keeps_heartbeat_iff nodeId).mp (exact.keptHeartbeats nodeId)
  · intro apart
    constructor
    · exact fun roomId hash found => (janitored.lookup_binding.mp found).2
    · exact fun roomId nickname member => ((janitored.members roomId nickname).mp member).1
    · intro nodeId listed
      by_contra dead
      obtain ⟨score, found⟩ := Finmap.mem_iff.mp listed
      rw [janitored.instanceLoad, if_neg dead] at found
      cases found
    · exact fun sessionId session found => (janitored.lookup_session.mp found).2
    · exact janitored.load
    · exact fun nodeId => (janitored.keeps_heartbeat_iff nodeId).mpr (apart nodeId)
    · exact fun nodeId lives => (janitored.instanceLoad nodeId).trans (if_pos lives)
    · intro roomId hash found lives
      have kept := janitored.lookup_binding.mpr ⟨found, lives⟩
      refine ⟨kept, fun nickname => (janitored.members roomId nickname).trans ?_⟩
      exact and_iff_right (Finmap.mem_of_lookup_eq_some kept)
    · exact fun sessionId session found lives => janitored.lookup_session.mpr ⟨found, lives⟩

end Janitored

/-! ## Termination -/

/-- Every command has an outcome. -/
theorem exec_total (now : ℕ) (command : Command) (store : Redis) :
    ∃ reply after, store.exec now command reply after := by
  have enumerates {Key : Type} [DecidableEq Key] (keys : Finset Key) :
      Enumerates keys.toList keys := ⟨keys.nodup_toList, keys.toList_toFinset⟩
  cases command with
  | ping | hset | sadd | zadd | zincr | zrem | zremrangeByScore | hsetInstance =>
      exact ⟨(), _, rfl⟩
  | smembers | zrangeByScore => exact ⟨_, _, enumerates _, rfl⟩
  | zrangeWithScores => exact ⟨_, _, Enumerates.entries (enumerates _), rfl⟩
  | hgetallInstances => exact ⟨_, _, Redis.lists_listed (enumerates _), rfl⟩
  | assignRoomToSfu => exact ⟨_, _, _, Redis.lists_listed (enumerates _), rfl⟩
  | compareAndDel key value =>
      simp only [Redis.exec]
      split
      · exact ⟨_, _, rfl, rfl⟩
      · exact ⟨_, _, rfl, rfl⟩
  | scan pattern cursor =>
      let owed := (cursor.map (· ∩ store.keys pattern)).getD (store.keys pattern)
      exact ⟨([], some (owed \ [].toFinset)), store, ⟨by simp, rfl⟩, rfl⟩
  | _ => exact ⟨_, _, rfl, rfl⟩

/-- The steps of an iteration: Redis commands and readings of the clock. -/
def Plain : Op → Prop
  | .redis _ | .unixNow => True
  | _ => False

theorem halts_of_plain {α : Type} {program : Call α} (only : program.Only Plain) :
    program.Halts World.exec := by
  refine only.halts fun op world plain => ?_
  cases op with
  | redis command =>
      obtain ⟨reply, redis, effect⟩ := exec_total world.now command world.redis
      exact ⟨.ok reply, _, reply, redis, effect, rfl, rfl⟩
  | unixNow => exact ⟨_, _, rfl, rfl⟩
  | _ => exact plain.elim

/-- One page may list every key. -/
theorem scanFrom_halts {pattern : ScanPattern} {bound : ℕ} (granted : 0 < bound) :
    (scanFrom pattern bound none []).run.Halts World.exec := by
  obtain ⟨bound, rfl⟩ := Nat.exists_eq_succ_of_ne_zero granted.ne'
  intro world
  let keys := (world.redis.keys pattern).toList
  have page : world.redis.Scans pattern none keys none := by
    refine ⟨fun key member => Finset.mem_toList.mp member, ?_⟩
    change world.redis.keys pattern \ keys.toFinset = ∅
    rw [Finset.toList_toFinset, Finset.sdiff_self]
  refine ⟨.ok ([] ++ keys), world, runs_except_bind.mpr ⟨.ok (keys, none), world, ?_, rfl, rfl⟩⟩
  exact runs_redisCommand.mpr ⟨(keys, none), world.redis, ⟨page, rfl⟩, rfl, rfl⟩

/-- An iteration comes to an end. -/
theorem runJanitorIteration_halts (granted : 0 < config.loopBound) :
    (runJanitorIteration config).run.Halts World.exec := by
  have slot (instanceId : InstanceId) : (decrementSfuRoomLoad instanceId).run.Only Plain :=
    decrementSfuRoomLoad_only trivial (fun _ => trivial) trivial trivial fun _ _ => trivial
  refine Halts.except_bind (halts_of_plain ⟨trivial, fun _ => ⟨trivial, fun _ => trivial⟩⟩)
    fun alive => ?_
  refine Halts.except_bind (halts_of_plain ⟨trivial, fun _ => trivial⟩) fun now => ?_
  refine Halts.except_bind (scanFrom_halts granted) fun bindingIds => ?_
  refine Halts.except_bind (halts_of_plain (Only.except_forM fun roomId _ =>
    reclaimIfStale_only trivial slot trivial trivial)) fun _ => ?_
  refine Halts.except_bind (scanFrom_halts granted) fun rooms => ?_
  refine Halts.except_bind (halts_of_plain (Only.except_forM fun roomId _ =>
    deleteIfOrphan_only trivial)) fun _ => ?_
  refine Halts.except_bind (halts_of_plain ((redisCommand_only trivial).except_bind
    fun _ => trivial)) fun nodes => ?_
  refine Halts.except_bind (halts_of_plain (Only.except_forM fun nodeId _ =>
    removeLoadIfStale_only trivial)) fun _ => ?_
  refine Halts.except_bind (scanFrom_halts granted) fun sessionIds => ?_
  refine Halts.except_bind (halts_of_plain (Only.except_forM fun sessionId _ =>
    deleteSessionIfStale_only trivial trivial)) fun _ => ?_
  exact halts_of_plain (Only.lift (logged_only (redisCommand_only trivial)))

theorem closeDeadSfuRoom_plain (sfuGrpcAddr : Address) (roomId : RoomId) :
    (closeDeadSfuRoom config sfuGrpcAddr roomId).Only fun op => Plain op ∨ AsksNode op := by
  refine Only.bind ((redisCommand_only (.inl trivial)).except_bind fun _ => trivial) fun found => ?_
  rcases found with _ | _ | binding
  · trivial
  · trivial
  · change (if binding.sfuGrpcAddr ≠ some sfuGrpcAddr then _ else _ : Call Unit).Only _
    split
    · trivial
    · refine Only.bind (notifyOwner_only fun _ => .inr trivial) fun _ => ?_
      exact reclaimRoom_only (fun _ => decrementSfuRoomLoad_only (.inl trivial)
        (fun _ => .inl trivial) (.inl trivial) (.inl trivial) fun _ _ => .inl trivial)
        (.inl trivial) (.inl trivial)

/-- `handle_dead_sfu` comes to an end when no node can be reached. -/
theorem handleDeadSfu_halts {sfuGrpcAddr : Address} (granted : 0 < config.loopBound) :
    (handleDeadSfu config sfuGrpcAddr).Halts execUnreachable := by
  have loop (ids : List RoomId) :
      (ids.forM (closeDeadSfuRoom config sfuGrpcAddr)).Halts execUnreachable := by
    refine (Only.forM fun roomId _ => closeDeadSfuRoom_plain sfuGrpcAddr roomId).halts ?_
    intro op world plain
    cases op with
    | redis command =>
        obtain ⟨reply, redis, effect⟩ := exec_total world.now command world.redis
        exact ⟨.ok reply, _, reply, redis, effect, rfl, rfl⟩
    | unixNow => exact ⟨_, _, rfl, rfl⟩
    | closeRoomsBySfu => exact ⟨false, world, rfl, rfl⟩
    | _ => exact (plain.elim id id).elim
  intro world
  obtain ⟨result, middle, scan⟩ := @scanFrom_halts .bindings _ granted world
  have quiet : (scanRoomBindingIds config.loopBound).run.Only fun op => ¬ AsksNode op :=
    scanFrom_only (fun _ => id) id
  have scan := (runs_unreachable quiet).mpr scan
  cases result with
  | error error => exact ⟨(), middle, runs_bind.mpr ⟨_, middle, scan, rfl, rfl⟩⟩
  | ok ids =>
      obtain ⟨result, after, run⟩ := loop ids middle
      exact ⟨result, after, runs_bind.mpr ⟨_, middle, scan, run⟩⟩

/-- **An iteration comes to an end, and is exact unless some heartbeat is exactly at
the cutoff.** -/
theorem runJanitorIteration_exact_iff (granted : 0 < config.loopBound) :
    (∃ result after, (runJanitorIteration config).run.Runs World.exec world result after) ∧
      ∀ result after, (runJanitorIteration config).run.Runs World.exec world result after →
        ((result = .ok () ∧ Exact config.signalingStaleTimeoutSecs world after) ↔
          ∀ nodeId, (world.redis.scores .signalingNodes).lookup nodeId ≠
            some (cutoff config.signalingStaleTimeoutSecs world)) := by
  refine ⟨runJanitorIteration_halts granted world, fun result after run => ?_⟩
  obtain ⟨returned, janitored⟩ := runJanitorIteration_runs run
  rw [← janitored.exact_iff]
  exact and_iff_right returned

/-- A supervisor that knows the node of `sampleNode`. -/
def sampleSupervisor : Config :=
  ⟨[⟨"127.0.0.1:8080", "http://127.0.0.1:9090"⟩], 30, 1⟩

/-- A node was last seen this many seconds ago. -/
def seenBefore (seconds : ℤ) : World :=
  { World.fresh with
    now := 100000
    redis := Redis.empty.zadd .signalingNodes "127.0.0.1:8081" (100 - seconds) }

theorem runJanitorIteration_exact_reclaim : ∃ after,
    (runJanitorIteration sampleSupervisor).run.Runs World.exec
      ((seenBefore 10).assignTo "room-1") (.ok ()) after ∧
    Exact 30 ((seenBefore 10).assignTo "room-1") after := by
  obtain ⟨⟨result, after, run⟩, exact_iff⟩ :=
    @runJanitorIteration_exact_iff sampleSupervisor ((seenBefore 10).assignTo "room-1") Nat.one_pos
  have apart (nodeId : NodeId) : (((seenBefore 10).assignTo "room-1").redis.scores
      .signalingNodes).lookup nodeId ≠ some 70 := by
    change ((∅ : Map NodeId ℤ).insert "127.0.0.1:8081" 90).lookup nodeId ≠ some 70
    rw [lookup_insert_if]
    split <;> simp
  obtain ⟨rfl, exact⟩ := (exact_iff result after run).mpr apart
  exact ⟨after, run, exact⟩

/-- **A node seen exactly the stale time ago is alive and loses its heartbeat.** -/
theorem boundary_heartbeat_lost : ∃ after,
    (runJanitorIteration sampleSupervisor).run.Runs World.exec (seenBefore 30) (.ok ()) after ∧
      ¬ Exact 30 (seenBefore 30) after := by
  let hints : List Hint := [{}, { names := ["127.0.0.1:8081"] }, {}, {}, {}, {}, {}, {}]
  obtain ⟨result, after, run, passed⟩ := World.exists_runs
    (runJanitorIteration sampleSupervisor).run (seenBefore 30) hints
    (fun result after => decide (result = .ok ()) &&
      decide ((after.redis.scores .signalingNodes).lookup "127.0.0.1:8081" = none))
    (by decide +kernel)
  obtain ⟨returned, lost⟩ := Bool.and_eq_true_iff.mp passed
  obtain rfl : result = .ok () := of_decide_eq_true returned
  refine ⟨after, run, fun exact => ?_⟩
  have lives : Alive 30 (seenBefore 30) "127.0.0.1:8081" := by decide +kernel
  have kept := exact.keptHeartbeats _ lives
  rw [of_decide_eq_true lost] at kept
  exact absurd kept.symm (by decide +kernel)

/-! ## Sessions in rooms that are gone -/

/-- The room a session names. -/
def roomOf (session : Hash) : Option RoomId := (session.get "room_id").filter (· ≠ "")

/-- Every room that a session names has a binding. -/
def NoDangling (store : Redis) : Prop :=
  ∀ sessionId session roomId, store.sessions.lookup sessionId = some session →
    roomOf session.hash = some roomId → roomId ∈ store.bindings

/-- No session that stays names a room that goes. -/
def Apart (store : Redis) (stays : SessionHash → Prop) (goes : Hash → Prop) : Prop :=
  ∀ sessionId session roomId binding, store.sessions.lookup sessionId = some session →
    stays session → roomOf session.hash = some roomId →
    store.bindings.lookup roomId = some binding → ¬ goes binding

/-- A pass that drops sessions and bindings leaves no dangling session exactly when
no session that stays names a room that goes. -/
theorem noDangling_iff {before after : Redis} {stays : SessionHash → Prop} {goes : Hash → Prop}
    (sound : NoDangling before)
    (sessions : ∀ sessionId session, after.sessions.lookup sessionId = some session ↔
      before.sessions.lookup sessionId = some session ∧ stays session)
    (bindings : ∀ roomId binding, after.bindings.lookup roomId = some binding ↔
      before.bindings.lookup roomId = some binding ∧ ¬ goes binding) :
    NoDangling after ↔ Apart before stays goes := by
  constructor
  · intro none sessionId session roomId binding found kept named bound gone
    obtain ⟨other, present⟩ := Finmap.mem_iff.mp
      (none sessionId session roomId ((sessions _ _).mpr ⟨found, kept⟩) named)
    obtain ⟨same, lives⟩ := (bindings _ _).mp present
    obtain rfl : binding = other := Option.some.inj (bound.symm.trans same)
    exact lives gone
  · intro apart sessionId session roomId found named
    obtain ⟨found, kept⟩ := (sessions _ _).mp found
    obtain ⟨binding, bound⟩ := Finmap.mem_iff.mp (sound sessionId session roomId found named)
    have lives := apart sessionId session roomId binding found kept named bound
    exact Finmap.mem_of_lookup_eq_some ((bindings roomId binding).mpr ⟨bound, lives⟩)

theorem runJanitorIteration_noDangling_iff (sound : NoDangling world.redis)
    {result : Except Failure Unit}
    (run : (runJanitorIteration config).run.Runs World.exec world result after) :
    NoDangling after.redis ↔ Apart world.redis
      (fun session => ¬ Dead config.signalingStaleTimeoutSecs world session.hash)
      (Dead config.signalingStaleTimeoutSecs world) := by
  obtain ⟨-, janitored⟩ := runJanitorIteration_runs run
  exact noDangling_iff sound (fun _ _ => janitored.lookup_session)
    fun _ _ => janitored.lookup_binding

theorem handleDeadSfu_noDangling_iff (sound : NoDangling world.redis) {sfuGrpcAddr : Address}
    (run : (handleDeadSfu config sfuGrpcAddr).Runs execUnreachable world () after) :
    NoDangling after.redis ↔ Apart world.redis (fun _ => True)
      (fun binding => addressOf binding = some sfuGrpcAddr) := by
  have reclaims := handleDeadSfu_runs run
  refine noDangling_iff sound (fun sessionId session => ?_) fun roomId binding => ?_
  · rw [reclaims.sessions]
    exact (and_iff_left trivial).symm
  · exact lookup_left (fun _ => Finset.mem_filter) reclaims.bindings

/-- **A pass of the supervisor leaves a session in a removed room exactly when the
session stays and its room goes**: for the janitor, when the owner of the room is dead
and the owner of the session is not; for a dead SFU, when the room is on it. -/
theorem noDangling_cleanup_iff (sound : NoDangling world.redis) :
    (∀ result after, (runJanitorIteration config).run.Runs World.exec world result after →
      (NoDangling after.redis ↔ Apart world.redis
        (fun session => ¬ Dead config.signalingStaleTimeoutSecs world session.hash)
        (Dead config.signalingStaleTimeoutSecs world))) ∧
    ∀ sfuGrpcAddr after,
      (handleDeadSfu config sfuGrpcAddr).Runs execUnreachable world () after →
      (NoDangling after.redis ↔ Apart world.redis (fun _ => True)
        (fun binding => addressOf binding = some sfuGrpcAddr)) :=
  ⟨fun _ _ run => runJanitorIteration_noDangling_iff sound run,
    fun _ _ run => handleDeadSfu_noDangling_iff sound run⟩

/-- The hash of a session of a node that is alive. -/
def strayHash (roomId : RoomId) : SessionHash :=
  ⟨Hash.set (some (Hash.set none "signaling_owner_id" "127.0.0.1:8081")) "room_id" roomId, none⟩

/-- A session of a node that is alive, and a room of one that is not. -/
def stray (roomId : RoomId) : World :=
  let world := (seenBefore 10).assignTo "room-1"
  { world with
    redis := { world.redis with
      sessions := (∅ : Map SessionId SessionHash).insert "session-1" (strayHash roomId) } }

theorem lookup_stray {roomId : RoomId} {sessionId : SessionId} {session : SessionHash}
    (found : (stray roomId).redis.sessions.lookup sessionId = some session) :
    session = strayHash roomId := by
  change ((∅ : Map SessionId SessionHash).insert "session-1" (strayHash roomId)).lookup sessionId =
    some session at found
  rw [lookup_insert_if] at found
  split at found
  · exact (Option.some.inj found).symm
  · cases found

theorem noDangling_cleanup_iff_free : NoDangling (stray "").redis ∧ ∃ result after,
    (runJanitorIteration sampleSupervisor).run.Runs World.exec (stray "") result after ∧
      NoDangling after.redis := by
  have nowhere {sessionId : SessionId} {session : SessionHash}
      (found : (stray "").redis.sessions.lookup sessionId = some session) :
      roomOf session.hash = none := by
    rw [lookup_stray found]
    decide
  have sound : NoDangling (stray "").redis := by
    intro sessionId session roomId found named
    cases (nowhere found).symm.trans named
  obtain ⟨result, after, run⟩ :=
    @runJanitorIteration_halts sampleSupervisor Nat.one_pos (stray "")
  refine ⟨sound, result, after, run, ?_⟩
  refine ((noDangling_cleanup_iff sound).1 result after run).mpr ?_
  intro sessionId session roomId binding found _ named
  cases (nowhere found).symm.trans named

/-- **A session in a room of a dead node, or of a dead SFU, is left dangling.** -/
theorem dangling_session : NoDangling (stray "room-1").redis ∧
    (∃ result after, (runJanitorIteration sampleSupervisor).run.Runs World.exec
      (stray "room-1") result after ∧ ¬ NoDangling after.redis) ∧
    ∃ after, (handleDeadSfu sampleSupervisor sampleSfu.grpcAddr).Runs execUnreachable
      (stray "room-1") () after ∧ ¬ NoDangling after.redis := by
  have room : roomOf (strayHash "room-1").hash = some "room-1" := by decide
  have sound : NoDangling (stray "room-1").redis := by
    intro sessionId session roomId found named
    rw [lookup_stray found, room] at named
    rw [← Option.some.inj named]
    exact Finmap.mem_of_lookup_eq_some (Finmap.lookup_insert _)
  have held : (stray "room-1").redis.sessions.lookup "session-1" = some (strayHash "room-1") :=
    Finmap.lookup_insert _
  have bound : (stray "room-1").redis.bindings.lookup "room-1" =
      some (Redis.newBinding "127.0.0.1" "8080" "127.0.0.1:8080" sampleSfu) :=
    Finmap.lookup_insert _
  refine ⟨sound, ?_, ?_⟩
  · obtain ⟨result, after, run⟩ :=
      @runJanitorIteration_halts sampleSupervisor Nat.one_pos (stray "room-1")
    refine ⟨result, after, run, fun none => ?_⟩
    have apart := (runJanitorIteration_noDangling_iff sound run).mp none
    exact apart _ _ _ _ held (by decide +kernel) room bound (by decide +kernel)
  · obtain ⟨_, after, run⟩ :=
      @handleDeadSfu_halts sampleSupervisor sampleSfu.grpcAddr Nat.one_pos (stray "room-1")
    refine ⟨after, run, fun none => ?_⟩
    have apart := (handleDeadSfu_noDangling_iff sound run).mp none
    exact apart _ _ _ _ held trivial room bound (by decide +kernel)

end Callifornia.Supervisor
