import Callifornia.Supervisor.Runs

/-! # One janitor iteration running alone

The iteration reclaims the rooms of dead owners, drops member sets without a binding,
the load entries of dead nodes and the sessions of dead owners, and compacts the
heartbeats. Only the last of these uses a cutoff of its own.
-/

namespace Callifornia.Supervisor

open Concurrency Concurrency.Program FiniteMap Store Signaling

variable {config : Config} {world after : World} {alive : List NodeId} {staleSecs : ℕ}

/-! ## The loops -/

/-- One binding is reclaimed when its owner is stale. -/
theorem reclaimIfStale_runs {before : World} {roomId : RoomId} {rooms : List RoomId}
    {result : Except Failure Unit}
    (living : ∀ nodeId, nodeId ∈ alive ↔ Alive staleSecs before nodeId)
    (done : Reclaiming before (Dead staleSecs before) rooms world)
    (run : (reclaimIfStale alive roomId).run.Runs World.exec world result after) :
    result = .ok () ∧ Reclaiming before (Dead staleSecs before) (roomId :: rooms) after := by
  obtain ⟨redis, rfl, reclaims⟩ := done
  obtain ⟨value, middle, read, rest⟩ := runs_except_bind.mp run
  obtain ⟨rfl, outcome⟩ := getRoomAssignment_runs read
  rcases outcome with ⟨absent, rfl⟩ | ⟨hash, binding, found, rfl, owned, named, -⟩
  · obtain ⟨rfl, rfl⟩ := rest
    refine ⟨rfl, redis, rfl, reclaims.skip fun hash found => ?_⟩
    cases absent.symm.trans found
  · change (if binding.ownerId = "" ∨ binding.ownerId ∈ alive then _ else _ :
      StoreCall Unit).run.Runs _ _ _ _ at rest
    rw [owned] at rest
    split at rest
    · rename_i kept
      obtain ⟨rfl, rfl⟩ := rest
      refine ⟨rfl, redis, rfl, reclaims.skip fun other same dead => ?_⟩
      obtain rfl : hash = other := Option.some.inj (found.symm.trans same)
      exact kept.elim dead.1 fun member => dead.2 ((living _).mp member)
    · rename_i gone
      obtain ⟨_, middle, reclaim, rfl, rfl⟩ := runs_bind.mp rest
      obtain ⟨instances, rfl⟩ := reclaimRoom_runs reclaim
      refine ⟨rfl, _, rfl, ?_⟩
      rw [named]
      have dead := (not_or.mp gone).imp_right fun unlisted => mt (living _).mpr unlisted
      exact reclaims.visit found dead instances

/-- The store without the members of these rooms, if they are not among the bound. -/
def withoutOrphans (store : Redis) (bindingIds rooms : List RoomId) : Redis :=
  { store with members := store.members.filter fun member =>
      ¬ (member.1 ∈ rooms ∧ member.1 ∉ bindingIds) }

/-- What the loop over the member sets has done so far. -/
def Clearing (world : World) (bindingIds rooms : List RoomId) (now : World) : Prop :=
  now = { world with redis := withoutOrphans world.redis bindingIds rooms }

/-- One member set is deleted when its room has no binding. -/
theorem deleteIfOrphan_runs {before : World} {bindingIds rooms : List RoomId} {roomId : RoomId}
    {result : Except Failure Unit} (done : Clearing before bindingIds rooms world)
    (run : (deleteIfOrphan bindingIds roomId).run.Runs World.exec world result after) :
    result = .ok () ∧ Clearing before bindingIds (roomId :: rooms) after := by
  rw [show world = _ from done] at run
  unfold deleteIfOrphan at run
  split at run
  · rename_i bound
    obtain ⟨rfl, rfl⟩ := run
    refine ⟨rfl, ?_⟩
    have same : before.redis.members.filter (fun member =>
        ¬ (member.1 ∈ rooms ∧ member.1 ∉ bindingIds)) = before.redis.members.filter fun member =>
        ¬ (member.1 ∈ roomId :: rooms ∧ member.1 ∉ bindingIds) := by
      refine Finset.filter_congr fun member _ => not_congr ?_
      rw [List.mem_cons, or_and_right]
      exact (or_iff_right fun here => here.2 (here.1 ▸ bound)).symm
    simp only [Clearing, withoutOrphans, same]
  · rename_i orphan
    obtain ⟨_, middle, clear, rfl, rfl⟩ := runs_bind.mp run
    obtain ⟨_, clear⟩ := logged_runs.mp clear
    refine ⟨rfl, ?_⟩
    have same : (before.redis.members.filter fun member =>
        ¬ (member.1 ∈ rooms ∧ member.1 ∉ bindingIds)).filter (·.1 ≠ roomId) =
        before.redis.members.filter fun member =>
          ¬ (member.1 ∈ roomId :: rooms ∧ member.1 ∉ bindingIds) := by
      rw [Finset.filter_filter]
      refine Finset.filter_congr fun member _ => ?_
      rw [List.mem_cons, or_and_right, not_or, and_comm]
      refine and_congr_left fun _ => not_congr ?_
      exact (and_iff_left_of_imp fun here => here ▸ orphan).symm
    rw [deleteSignalingRoomMembers_runs clear]
    simp only [Clearing, withoutOrphans, same]

/-- A map without the keys of a list that are to go. -/
def Without {Value : Type} (before : Map String Value) (gone : String → Prop)
    (keys : List String) (now : Map String Value) : Prop :=
  ∀ key, (key ∈ keys ∧ gone key → now.lookup key = none) ∧
    (¬ (key ∈ keys ∧ gone key) → now.lookup key = before.lookup key)

section Without

variable {Value : Type} {before now : Map String Value} {gone : String → Prop}
  {keys : List String} {key : String}

/-- Nothing has been removed at the start. -/
theorem Without.refl (before : Map String Value) : Without before gone [] before :=
  fun _ => ⟨fun member => (List.not_mem_nil member.1).elim, fun _ => rfl⟩

/-- A key that is to stay is skipped. -/
theorem Without.skip (without : Without before gone keys now)
    (stays : now.lookup key = none ∨ ¬ gone key) : Without before gone (key :: keys) now := by
  intro query
  obtain ⟨removed, kept⟩ := without query
  constructor
  · intro ⟨member, goes⟩
    rcases List.mem_cons.mp member with rfl | member
    · exact stays.resolve_right (not_not.mpr goes)
    · exact removed ⟨member, goes⟩
  · intro stays
    exact kept fun ⟨member, goes⟩ => stays ⟨List.mem_cons_of_mem _ member, goes⟩

/-- A key that is to go is erased. -/
theorem Without.erase (without : Without before gone keys now) (goes : gone key) :
    Without before gone (key :: keys) (now.erase key) := by
  intro query
  obtain ⟨removed, kept⟩ := without query
  rw [lookup_erase_if]
  constructor
  · intro ⟨member, goes⟩
    split
    · rfl
    · rename_i other
      exact removed ⟨(List.mem_cons.mp member).resolve_left other, goes⟩
  · intro stays
    have other : query ≠ key := by
      intro same
      subst same
      exact stays ⟨List.mem_cons_self, goes⟩
    rw [if_neg other]
    exact kept fun ⟨member, goes⟩ => stays ⟨List.mem_cons_of_mem _ member, goes⟩

end Without

/-- What the loop over the load entries has done so far. -/
def Unloading (world : World) (staleSecs : ℕ) (before : World) (nodes : List NodeId)
    (now : World) : Prop :=
  ∃ scores, now = { world with redis := world.redis.setScores .instanceLoad scores } ∧
    Without (world.redis.scores .instanceLoad) (¬ Alive staleSecs before ·) nodes scores

/-- One load is removed when its node is stale. -/
theorem removeLoadIfStale_runs {start before : World} {nodes : List NodeId} {nodeId : NodeId}
    {result : Except Failure Unit}
    (living : ∀ nodeId, nodeId ∈ alive ↔ Alive staleSecs before nodeId)
    (done : Unloading start staleSecs before nodes world)
    (run : (removeLoadIfStale alive nodeId).run.Runs World.exec world result after) :
    result = .ok () ∧ Unloading start staleSecs before (nodeId :: nodes) after := by
  obtain ⟨scores, rfl, without⟩ := done
  unfold removeLoadIfStale at run
  split at run
  · rename_i listed
    obtain ⟨rfl, rfl⟩ := run
    exact ⟨rfl, scores, rfl, without.skip (.inr (not_not.mpr ((living _).mp listed)))⟩
  · rename_i unlisted
    have dead := mt (living nodeId).mpr unlisted
    obtain ⟨_, middle, remove, rfl, rfl⟩ := runs_bind.mp run
    obtain ⟨_, remove⟩ := logged_runs.mp remove
    obtain ⟨_, redis, effect, -, rfl⟩ := runs_redisCommand.mp remove
    refine ⟨rfl, scores.erase nodeId, ?_, without.erase dead⟩
    rw [show redis = _ from effect]
    simp only [Redis.setScores, Function.update_self, Function.update_idem]

/-- A session that is to go: its owner is named and not alive. -/
def Forsaken (staleSecs : ℕ) (world : World) (sessionId : SessionId) : Prop :=
  ∃ session ∈ world.redis.sessions.lookup sessionId, Dead staleSecs world session.hash

instance (staleSecs : ℕ) (world : World) (sessionId : SessionId) :
    Decidable (Forsaken staleSecs world sessionId) :=
  inferInstanceAs (Decidable (∃ session ∈ _, _))

/-- What the loop over the sessions has done so far. -/
def Dropping (world : World) (gone : SessionId → Prop) (ids : List SessionId)
    (now : World) : Prop :=
  ∃ sessions, now = { world with redis := { world.redis with sessions } } ∧
    Without world.redis.sessions gone ids sessions

/-- One session is deleted when its node is stale. -/
theorem deleteSessionIfStale_runs {start before : World} {ids : List SessionId}
    {sessionId : SessionId} {result : Except Failure Unit}
    (living : ∀ nodeId, nodeId ∈ alive ↔ Alive staleSecs before nodeId)
    (same : start.redis.sessions = before.redis.sessions)
    (done : Dropping start (Forsaken staleSecs before) ids world)
    (run : (deleteSessionIfStale alive sessionId).run.Runs World.exec world result after) :
    result = .ok () ∧ Dropping start (Forsaken staleSecs before) (sessionId :: ids) after := by
  obtain ⟨sessions, rfl, without⟩ := done
  obtain ⟨value, middle, read, rest⟩ := runs_except_bind.mp run
  obtain ⟨rfl, rfl⟩ := getSessionOwner_runs read
  -- What the session holds now, unless it is gone already, it held at the start.
  have original : ∀ session, sessions.lookup sessionId = some session →
      before.redis.sessions.lookup sessionId = some session := by
    intro session found
    obtain ⟨removed, kept⟩ := without sessionId
    by_cases gone : sessionId ∈ ids ∧ Forsaken staleSecs before sessionId
    · cases (removed gone).symm.trans found
    · rw [← same, ← kept gone, found]
  have stays (unforsaken : ∀ session, sessions.lookup sessionId = some session →
      ¬ Dead staleSecs before session.hash) :
      sessions.lookup sessionId = none ∨ ¬ Forsaken staleSecs before sessionId := by
    cases found : sessions.lookup sessionId with
    | none => exact .inl rfl
    | some session =>
        refine .inr fun ⟨other, present, dead⟩ => unforsaken session found ?_
        rwa [Option.some.inj ((original session found).symm.trans present)]
  dsimp only at rest
  split at rest
  · rename_i unowned
    obtain ⟨rfl, rfl⟩ := rest
    refine ⟨rfl, sessions, rfl, without.skip (stays fun session found dead => ?_)⟩
    rw [found] at unowned
    simp [dead.1] at unowned
  · rename_i name owned
    obtain ⟨named, nonempty⟩ := Option.filter_eq_some_iff.mp owned
    obtain ⟨session, found, rfl⟩ := Option.map_eq_some_iff.mp named
    split at rest
    · rename_i listed
      obtain ⟨rfl, rfl⟩ := rest
      refine ⟨rfl, sessions, rfl, without.skip (stays fun other found' dead => ?_)⟩
      obtain rfl : session = other := Option.some.inj (found.symm.trans found')
      exact dead.2 ((living _).mp listed)
    · rename_i unlisted
      have dead := mt (living (owner session.hash)).mpr unlisted
      obtain ⟨_, middle, delete, rfl, rfl⟩ := runs_bind.mp rest
      obtain ⟨_, delete⟩ := logged_runs.mp delete
      obtain ⟨value, middle, delete, rest⟩ := runs_except_bind.mp delete
      obtain ⟨_, redis, ⟨-, effect⟩, rfl, rfl⟩ := runs_redisCommand.mp delete
      obtain ⟨-, rfl⟩ := rest
      refine ⟨rfl, sessions.erase sessionId, ?_, without.erase ?_⟩
      · rw [effect]
        rfl
      · exact ⟨session, original session found, of_decide_eq_true nonempty, dead⟩

/-! ## The whole iteration -/

/-- The rooms of dead owners. -/
def deadRooms (staleSecs : ℕ) (world : World) : Finset RoomId :=
  world.redis.bindings.keys.filter fun roomId =>
    ∃ hash ∈ world.redis.bindings.lookup roomId, Dead staleSecs world hash

/-- What an iteration leaves of the store. -/
structure Janitored (staleSecs : ℕ) (before after : World) : Prop where
  reclaims : ∀ roomId, after.redis.bindings.lookup roomId =
    if roomId ∈ deadRooms staleSecs before then none else before.redis.bindings.lookup roomId
  members : ∀ roomId nickname, (roomId, nickname) ∈ after.redis.members ↔
    roomId ∈ after.redis.bindings ∧ (roomId, nickname) ∈ before.redis.members
  load : ∀ instanceId, after.redis.score .roomLoad instanceId =
    lessened (before.redis.score .roomLoad instanceId)
      ((deadRooms staleSecs before).filter fun roomId =>
        (before.redis.bindings.lookup roomId).bind instanceOf = some instanceId).card
  instanceLoad : ∀ nodeId, (after.redis.scores .instanceLoad).lookup nodeId =
    if Alive staleSecs before nodeId then (before.redis.scores .instanceLoad).lookup nodeId
    else none
  sessions : ∀ sessionId, after.redis.sessions.lookup sessionId =
    (before.redis.sessions.lookup sessionId).filter fun session =>
      ¬ Dead staleSecs before session.hash
  heartbeats : ∀ nodeId, (after.redis.scores .signalingNodes).lookup nodeId =
    ((before.redis.scores .signalingNodes).lookup nodeId).filter
      (((before.now / 1000 : ℕ) : ℤ) - staleSecs < ·)

/-- The members of the load set are read without a change. -/
theorem signalingLoadMembers_runs {result : Except Failure (List NodeId)}
    (run : signalingLoadMembers.run.Runs World.exec world result after) :
    after = world ∧ ∃ members, result = .ok members ∧
      ∀ nodeId, nodeId ∈ members ↔ nodeId ∈ world.redis.scores .instanceLoad := by
  obtain ⟨value, middle, read, rest⟩ := runs_except_bind.mp run
  obtain ⟨entries, redis, ⟨lists, same⟩, rfl, rfl⟩ := runs_redisCommand.mp read
  obtain rfl : redis = world.redis := same
  obtain ⟨rfl, rfl⟩ := rest
  refine ⟨rfl, _, rfl, fun nodeId => ?_⟩
  rw [← Multiset.mem_coe, ← Multiset.map_coe, lists, Multiset.map_map]
  exact Iff.rfl

/-- A map without all the keys that are to go. -/
theorem Without.lookup {Value : Type} {before now : Map String Value} {gone : String → Prop}
    {keys : List String} (without : Without before gone keys now)
    (all : ∀ key, key ∈ keys ↔ key ∈ before) (key : String) [Decidable (gone key)] :
    now.lookup key = if gone key then none else before.lookup key := by
  obtain ⟨removed, kept⟩ := without key
  split
  · rename_i goes
    by_cases present : key ∈ before
    · exact removed ⟨(all key).mpr present, goes⟩
    · rw [kept fun both => present ((all key).mp both.1)]
      exact Finmap.lookup_eq_none.mpr present
  · rename_i stays
    exact kept fun both => stays both.2

/-- Dropping the forsaken sessions is filtering them by their node. -/
theorem filter_forsaken (staleSecs : ℕ) (world : World) (sessionId : SessionId) :
    (if Forsaken staleSecs world sessionId then none
      else world.redis.sessions.lookup sessionId) =
      (world.redis.sessions.lookup sessionId).filter fun session =>
        ¬ Dead staleSecs world session.hash := by
  cases found : world.redis.sessions.lookup sessionId with
  | none => simp
  | some session =>
      have forsaken : Forsaken staleSecs world sessionId ↔ Dead staleSecs world session.hash := by
        unfold Forsaken
        rw [found]
        simp
      simp only [forsaken]
      by_cases dead : Dead staleSecs world session.hash <;> simp [dead, Option.filter]

/-- A pass over the bindings reclaims those of stale nodes. -/
theorem reclaimRooms_runs {bindingIds : List RoomId} {result : Except Failure Unit}
    (living : ∀ nodeId, nodeId ∈ alive ↔ Alive staleSecs world nodeId)
    (bound : ∀ roomId, roomId ∈ bindingIds ↔ roomId ∈ world.redis.bindings.keys)
    (run : (bindingIds.forM (reclaimIfStale alive)).run.Runs World.exec world result after) :
    result = .ok () ∧ ∃ redis, after = { world with redis } ∧
      Reclaims world.redis redis (deadRooms staleSecs world) := by
  have start : Reclaiming world (Dead staleSecs world) [] world := ⟨_, rfl, .refl _⟩
  obtain ⟨returned, redis, same, reclaims⟩ := runs_except_forM
    (fun done roomId before result after _ kept run => reclaimIfStale_runs living kept run)
    start run
  refine ⟨returned, redis, same, ?_⟩
  convert reclaims using 1
  ext roomId
  rw [mem_reclaimable, List.append_nil, List.mem_reverse, bound, deadRooms, Finset.mem_filter]
  exact Iff.rfl

/-- A pass over the member sets deletes the orphans. -/
theorem deleteOrphans_runs {bindingIds rooms : List RoomId} {result : Except Failure Unit}
    (all : ∀ roomId, roomId ∈ rooms ↔ roomId ∈ world.redis.keys .members)
    (run : (rooms.forM (deleteIfOrphan bindingIds)).run.Runs World.exec world result after) :
    result = .ok () ∧ after = { world with
      redis := { world.redis with
        members := world.redis.members.filter (·.1 ∈ bindingIds) } } := by
  have start : Clearing world bindingIds [] world := by
    simp [Clearing, withoutOrphans]
  obtain ⟨returned, same⟩ := runs_except_forM
    (fun done roomId before result after _ kept run => deleteIfOrphan_runs kept run) start run
  refine ⟨returned, (show after = _ from same).trans ?_⟩
  have orphans : world.redis.members.filter (fun member =>
      ¬ (member.1 ∈ rooms.reverse ++ [] ∧ member.1 ∉ bindingIds)) =
      world.redis.members.filter (·.1 ∈ bindingIds) := by
    refine Finset.filter_congr fun member present => ?_
    have scanned : member.1 ∈ rooms := (all member.1).mpr (Finset.mem_image_of_mem _ present)
    simp [scanned]
  simp only [withoutOrphans, orphans]

/-- A pass over the loads removes those of stale nodes. -/
theorem removeLoads_runs {before : World} {nodes : List NodeId} {result : Except Failure Unit}
    (living : ∀ nodeId, nodeId ∈ alive ↔ Alive staleSecs before nodeId)
    (all : ∀ nodeId, nodeId ∈ nodes ↔ nodeId ∈ world.redis.scores .instanceLoad)
    (run : (nodes.forM (removeLoadIfStale alive)).run.Runs World.exec world result after) :
    result = .ok () ∧ ∃ scores,
      after = { world with redis := world.redis.setScores .instanceLoad scores } ∧
      ∀ nodeId, scores.lookup nodeId = if Alive staleSecs before nodeId then
        (world.redis.scores .instanceLoad).lookup nodeId else none := by
  have start : Unloading world staleSecs before [] world :=
    ⟨_, by rw [Redis.setScores_self], .refl _⟩
  obtain ⟨returned, scores, same, without⟩ := runs_except_forM
    (fun done nodeId _ result after _ kept run => removeLoadIfStale_runs living kept run)
    start run
  refine ⟨returned, scores, same, fun nodeId => ?_⟩
  have listed (nodeId : NodeId) : nodeId ∈ nodes.reverse ++ [] ↔
      nodeId ∈ world.redis.scores .instanceLoad := by
    rw [List.append_nil, List.mem_reverse, all]
  rw [without.lookup listed]
  split <;> simp_all

/-- A pass over the sessions deletes those of stale nodes. -/
theorem deleteSessions_runs {before : World} {ids : List SessionId}
    {result : Except Failure Unit}
    (living : ∀ nodeId, nodeId ∈ alive ↔ Alive staleSecs before nodeId)
    (same : world.redis.sessions = before.redis.sessions)
    (all : ∀ sessionId, sessionId ∈ ids ↔ sessionId ∈ world.redis.sessions.keys)
    (run : (ids.forM (deleteSessionIfStale alive)).run.Runs World.exec world result after) :
    result = .ok () ∧ ∃ sessions,
      after = { world with redis := { world.redis with sessions } } ∧
      ∀ sessionId, sessions.lookup sessionId =
        (before.redis.sessions.lookup sessionId).filter fun session =>
          ¬ Dead staleSecs before session.hash := by
  have start : Dropping world (Forsaken staleSecs before) [] world := ⟨_, rfl, .refl _⟩
  obtain ⟨returned, sessions, outcome, without⟩ := runs_except_forM
    (fun done sessionId _ result after _ kept run =>
      deleteSessionIfStale_runs living same kept run)
    start run
  refine ⟨returned, sessions, outcome, fun sessionId => ?_⟩
  have listed (sessionId : SessionId) : sessionId ∈ ids.reverse ++ [] ↔
      sessionId ∈ world.redis.sessions := by
    rw [List.append_nil, List.mem_reverse, all, Finmap.mem_keys]
  rw [without.lookup listed, same, filter_forsaken]

/-- The store after the stages that follow the reclaiming of rooms. -/
def swept (store : Redis) (bindingIds : List RoomId) (loads : Map NodeId ℤ)
    (sessions : Map SessionId SessionHash) (cutoff : ℤ) : Redis :=
  { store with
    members := store.members.filter (·.1 ∈ bindingIds)
    sessions
    scores := Function.update (Function.update store.scores .instanceLoad loads) .signalingNodes
      (FiniteMap.filter (fun _ score => cutoff < score) (store.scores .signalingNodes)) }

/-- The four passes together are the janitor's work. -/
theorem Janitored.of_swept {redis : Redis} {bindingIds : List RoomId} {loads : Map NodeId ℤ}
    {sessions : Map SessionId SessionHash}
    (bound : ∀ roomId, roomId ∈ bindingIds ↔ roomId ∈ world.redis.bindings)
    (reclaims : Reclaims world.redis redis (deadRooms staleSecs world))
    (unloaded : ∀ nodeId, loads.lookup nodeId = if Alive staleSecs world nodeId then
      (redis.scores .instanceLoad).lookup nodeId else none)
    (dropped : ∀ sessionId, sessions.lookup sessionId =
      (world.redis.sessions.lookup sessionId).filter fun session =>
        ¬ Dead staleSecs world session.hash) :
    Janitored staleSecs world { world with
      redis := swept redis bindingIds loads sessions ((world.now / 1000 : ℕ) - staleSecs) } where
  reclaims := reclaims.bindings
  members roomId nickname := by
    change (roomId, nickname) ∈ redis.members.filter (·.1 ∈ bindingIds) ↔
      roomId ∈ redis.bindings ∧ _
    rw [Finset.mem_filter, reclaims.members, reclaims.mem_bindings, bound]
    tauto
  load := reclaims.load
  instanceLoad nodeId := by
    refine (unloaded nodeId).trans ?_
    rw [show redis.scores .instanceLoad = _ from reclaims.scores _ nofun]
  sessions := dropped
  heartbeats nodeId := by
    change (FiniteMap.filter (fun _ score => ((world.now / 1000 : ℕ) : ℤ) - staleSecs < score)
      (redis.scores .signalingNodes)).lookup nodeId = _
    rw [lookup_filter, show redis.scores .signalingNodes = _ from reclaims.scores _ nofun]

/-- **What a janitor iteration leaves.** It succeeds, and the store is the one described. -/
theorem runJanitorIteration_runs {result : Except Failure Unit}
    (run : (runJanitorIteration config).run.Runs World.exec world result after) :
    result = .ok () ∧ Janitored config.signalingStaleTimeoutSecs world after := by
  obtain ⟨value, middle, read, rest⟩ := runs_except_bind.mp run
  obtain ⟨same, alive, rfl, living⟩ := aliveSignalingNodes_runs read
  rw [same] at rest
  obtain ⟨now, middle, clock, rest⟩ := runs_lift_bind.mp rest
  obtain ⟨rfl, same⟩ := runs_unixNow.mp clock
  rw [same] at rest
  -- The rooms of dead owners.
  obtain ⟨value, middle, scan, rest⟩ := runs_except_bind.mp rest
  obtain ⟨same, bindingIds, rfl, bound⟩ := scan_runs scan
  rw [same] at rest
  obtain ⟨value, middle, loop, rest⟩ := runs_except_bind.mp rest
  obtain ⟨rfl, redis, rfl, reclaims⟩ := reclaimRooms_runs living bound loop
  -- The member sets of rooms that were not bound.
  obtain ⟨value, middle, scan, rest⟩ := runs_except_bind.mp rest
  obtain ⟨same, rooms, rfl, listed⟩ := scan_runs scan
  rw [same] at rest
  obtain ⟨value, middle, loop, rest⟩ := runs_except_bind.mp rest
  obtain ⟨rfl, rfl⟩ := deleteOrphans_runs listed loop
  -- The load entries of dead nodes.
  obtain ⟨value, middle, read, rest⟩ := runs_except_bind.mp rest
  obtain ⟨same, nodes, rfl, counted⟩ := signalingLoadMembers_runs read
  rw [same] at rest
  obtain ⟨value, middle, loop, rest⟩ := runs_except_bind.mp rest
  obtain ⟨rfl, loads, rfl, unloaded⟩ := removeLoads_runs living counted loop
  -- The sessions of dead owners.
  obtain ⟨value, middle, scan, rest⟩ := runs_except_bind.mp rest
  obtain ⟨same, sessionIds, rfl, stored⟩ := scan_runs scan
  rw [same] at rest
  obtain ⟨value, middle, loop, rest⟩ := runs_except_bind.mp rest
  obtain ⟨rfl, sessions, rfl, dropped⟩ :=
    deleteSessions_runs living reclaims.sessions stored loop
  -- The heartbeats.
  obtain ⟨_, middle, compact, returned, rfl⟩ := runs_bind.mp rest
  obtain ⟨_, compact⟩ := logged_runs.mp compact
  obtain ⟨_, last, effect, -, rfl⟩ := runs_redisCommand.mp compact
  rw [show last = _ from effect]
  refine ⟨returned, ?_⟩
  exact Janitored.of_swept bound reclaims unloaded dropped

end Callifornia.Supervisor
