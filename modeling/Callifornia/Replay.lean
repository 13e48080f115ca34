import Callifornia.Concurrency.Faults
import Callifornia.Concurrency.Replay
import Callifornia.Signaling.State
import Callifornia.Threads

/-! # Computing the steps of the deployment

One outcome of each step, for replaying a concrete schedule. A hint fixes the
order of an unordered reply, the identifier drawn, and whether a step that may
fail does so.
-/

namespace Callifornia

open Concurrency Concurrency.System FiniteMap Store Signaling

/-- What settles the outcome of a step that the state does not determine. -/
structure Hint where
  /-- The order of an unordered reply, or the identifier drawn. -/
  names : List String := []
  /-- The order of a snapshot of rooms. -/
  rooms : List (RoomId × List Nickname) := []
  /-- A step that may fail succeeds. -/
  succeeds : Bool := true

/-- A run takes some steps in a row that need no hint. -/
def turns (position count : ℕ) : List (ℕ × Hint) := List.replicate count (position, {})

/-- A program that runs alone takes some steps in a row that need no hint. -/
def noHints (count : ℕ) : List Hint := List.replicate count {}

namespace Store.Redis

/-- The records of some instances. -/
def listed (store : Redis) (names : List InstanceId) : List SfuInstance :=
  names.filterMap store.instances.lookup

/-- The records of all instances, each once. -/
theorem lists_listed {store : Redis} {names : List InstanceId}
    (all : Enumerates names store.instances.keys) : store.Lists (store.listed names) := by
  have entries := congrArg (Multiset.map Prod.snd) all.entries
  rw [Multiset.map_coe, Multiset.map_map] at entries
  refine Eq.trans ?_ entries
  rw [listed, List.map_filterMap]
  simp only [Option.map_map, Function.comp_def, Option.map_id']

/-- One outcome of a command. -/
def sample (hint : Hint) (now : ℕ) :
    (command : Command) → Redis → Option (command.Reply × Redis)
  | .ping, store => some ((), store)
  | .exists key, store => some ((store.hash key).isSome, store)
  | .hget key field, store => some ((store.hash key).bind (·.get field), store)
  | .hgetall key, store => some (((store.hash key).map Hash.fields).getD ∅, store)
  | .hset key field value, store => some ((), store.hset key field value)
  | .del key, store => some (if (store.hash key).isSome then 1 else 0, store.delHash key)
  | .expire sessionId seconds, store =>
      some ((store.sessions.lookup sessionId).isSome,
        { store with
          sessions := adjust store.sessions sessionId fun session =>
            { session with deadline := some (now + seconds * 1000) } })
  | .sismember roomId nickname, store =>
      some (decide ((roomId, nickname) ∈ store.members), store)
  | .sadd roomId nickname, store =>
      some ((), { store with members := insert (roomId, nickname) store.members })
  | .srem roomId nickname, store =>
      some (if (roomId, nickname) ∈ store.members then 1 else 0,
        { store with members := store.members.erase (roomId, nickname) })
  | .scard roomId, store => some ((store.roomMembers roomId).card, store)
  | .smembers roomId, store =>
      if Enumerates hint.names (store.roomMembers roomId) then some (hint.names, store) else none
  | .delMembers roomId, store =>
      some (if (store.roomMembers roomId).Nonempty then 1 else 0,
        { store with members := store.members.filter (·.1 ≠ roomId) })
  | .zscore set member, store => some ((store.scores set).lookup member, store)
  | .zadd set member score, store => some ((), store.zadd set member score)
  | .zincr set member delta, store =>
      some ((), store.zadd set member (store.score set member + delta))
  | .zrem set member, store => some ((), store.setScores set ((store.scores set).erase member))
  | .zrangeWithScores set, store =>
      if Enumerates hint.names (store.scores set).keys then
        some (hint.names.filterMap fun member =>
          ((store.scores set).lookup member).map fun score => (member, score), store)
      else none
  | .zrangeByScore set min, store =>
      if Enumerates hint.names
          (FiniteMap.filter (fun _ score => min ≤ score) (store.scores set)).keys then
        some (hint.names, store)
      else none
  | .zremrangeByScore set max, store =>
      some ((), store.setScores set
        (FiniteMap.filter (fun _ score => max < score) (store.scores set)))
  | .setNx key value expiryMs, store =>
      some ((store.strings.lookup key).isNone,
        if (store.strings.lookup key).isNone then
          { store with strings := store.strings.insert key ⟨value, expiryMs.map (now + ·)⟩ }
        else store)
  | .get key, store => some ((store.strings.lookup key).map StringValue.value, store)
  | .compareAndDel key value, store =>
      if (store.strings.lookup key).map StringValue.value = some value then
        some (1, { store with strings := store.strings.erase key })
      else some (0, store)
  | .hgetInstance instanceId, store => some (store.instances.lookup instanceId, store)
  | .hsetInstance instanceId payload, store =>
      some ((), { store with instances := store.instances.insert instanceId payload })
  | .hgetallInstances, store =>
      if Enumerates hint.names store.instances.keys then
        some (store.listed hint.names, store)
      else none
  | .assignRoomToSfu roomId ownerHost ownerPort ownerId clock staleAfter, store =>
      if Enumerates hint.names store.instances.keys then
        some (store.assignRoomToSfu roomId ownerHost ownerPort ownerId clock staleAfter
          (store.listed hint.names))
      else none
  | .scan pattern none, store =>
      if Enumerates hint.names (store.keys pattern) then some ((hint.names, none), store) else none
  | _, _ => none

theorem sample_sound {hint : Hint} {now : ℕ} {command : Command} {store after : Redis}
    {reply : command.Reply} (sampled : sample hint now command store = some (reply, after)) :
    exec now command store reply after := by
  cases command with
  | smembers | zrangeByScore =>
      simp only [sample] at sampled
      split at sampled
      · rename_i all
        cases sampled
        exact ⟨all, rfl⟩
      · cases sampled
  | zrangeWithScores =>
      simp only [sample] at sampled
      split at sampled
      · rename_i all
        cases sampled
        exact ⟨all.entries, rfl⟩
      · cases sampled
  | hgetallInstances =>
      simp only [sample] at sampled
      split at sampled
      · rename_i all
        cases sampled
        exact ⟨lists_listed all, rfl⟩
      · cases sampled
  | assignRoomToSfu =>
      simp only [sample] at sampled
      split at sampled
      · rename_i all
        exact ⟨_, lists_listed all, (Option.some.inj sampled).symm⟩
      · cases sampled
  | compareAndDel key value =>
      simp only [sample] at sampled
      simp only [exec]
      split at sampled
      · rename_i held
        cases sampled
        rw [if_pos held]
        exact ⟨rfl, rfl⟩
      · rename_i other
        cases sampled
        rw [if_neg other]
        exact ⟨rfl, rfl⟩
  | scan pattern cursor =>
      cases cursor with
      | some => cases sampled
      | none =>
          simp only [sample] at sampled
          split at sampled
          · rename_i all
            cases sampled
            refine ⟨⟨fun key member => all.mem_iff.mp member, ?_⟩, rfl⟩
            change store.keys pattern \ hint.names.toFinset = ∅
            rw [all.2, Finset.sdiff_self]
          · cases sampled
  | ping | hset | sadd | zadd | zincr | zrem | zremrangeByScore | hsetInstance =>
      cases sampled
      rfl
  | «exists» | hget | hgetall | del | sismember | srem | scard | delMembers | zscore | setNx
  | hgetInstance | expire | get =>
      cases sampled
      exact ⟨rfl, rfl⟩

end Store.Redis

namespace Signaling

/-- One outcome of a critical section of the peer registry. -/
def PeerRegistry.sample (hint : Hint) :
    (command : PeerRegistry.Command) → PeerRegistry → Option (command.Reply × PeerRegistry)
  | .register roomId nickname entry, peers => some ((), peers.insert (roomId, nickname) entry)
  | .unregister roomId nickname, peers => some ((), peers.erase (roomId, nickname))
  | .sender roomId nickname, peers =>
      some ((peers.lookup (roomId, nickname)).map PeerEntry.sender, peers)
  | .targets roomId exceptNickname, peers =>
      if Enumerates hint.names ((nicknames peers roomId).filter (exceptNickname ≠ some ·)) then
        some (hint.names.filterMap fun nickname =>
          (peers.lookup (roomId, nickname)).map fun entry => (nickname, entry.sender), peers)
      else none
  | .snapshotRooms, peers =>
      if Enumerates (hint.rooms.map Prod.fst) (peers.keys.image Prod.fst) ∧
          ∀ room ∈ hint.rooms, Enumerates room.2 (nicknames peers room.1) then
        some (hint.rooms, peers)
      else none
  | .snapshotRoomsWithSfu, peers =>
      if Enumerates (hint.rooms.map Prod.fst) (peers.keys.image Prod.fst) ∧
          ∀ room ∈ hint.rooms, Enumerates room.2 (nicknames peers room.1) then
        some (hint.rooms.map fun room => (room.1, room.2.filterMap fun nickname =>
          (peers.lookup (room.1, nickname)).map fun entry => (nickname, entry.sfuAddr)), peers)
      else none
  | .clear, _ => some ((), ∅)

theorem PeerRegistry.filterMap_fst_sublist {α : Type} (peers : PeerRegistry) (roomId : RoomId)
    (names : List Nickname) (read : PeerEntry → α) :
    ((names.filterMap fun nickname => (peers.lookup (roomId, nickname)).map fun entry =>
      (nickname, read entry)).map Prod.fst).Sublist names := by
  induction names with
  | nil => exact .slnil
  | cons nickname names ih =>
      rw [List.filterMap_cons]
      cases peers.lookup (roomId, nickname) with
      | none => exact ih.cons nickname
      | some entry => exact ih.cons_cons nickname

theorem PeerRegistry.sample_sound {hint : Hint} {command : PeerRegistry.Command}
    {peers after : PeerRegistry} {reply : command.Reply}
    (sampled : sample hint command peers = some (reply, after)) :
    exec command peers reply after := by
  cases command with
  | register | unregister | clear =>
      cases sampled
      rfl
  | sender =>
      cases sampled
      exact ⟨rfl, rfl⟩
  | targets roomId exceptNickname =>
      simp only [sample] at sampled
      split at sampled
      · rename_i all
        cases sampled
        refine ⟨⟨(filterMap_fst_sublist peers roomId _ _).nodup all.1, fun nickname sender => ?_⟩,
          rfl⟩
        simp only [List.mem_filterMap, Option.map_eq_some_iff, Prod.mk.injEq, all.mem_iff,
          Finset.mem_filter, mem_nicknames]
        constructor
        · rintro ⟨_, ⟨-, other⟩, entry, found, rfl, rfl⟩
          exact ⟨other, entry, found, rfl⟩
        · rintro ⟨other, entry, found, rfl⟩
          exact ⟨nickname, ⟨Finmap.mem_of_lookup_eq_some found, other⟩, entry, found, rfl, rfl⟩
      · cases sampled
  | snapshotRooms =>
      simp only [sample] at sampled
      split at sampled
      · rename_i all
        cases sampled
        refine ⟨⟨all.1.1, fun roomId => ?_, all.2⟩, rfl⟩
        rw [all.1.mem_iff]
        simp only [Finset.mem_image, Finmap.mem_keys, Prod.exists, exists_and_right,
          exists_eq_right, Finset.Nonempty, mem_nicknames]
      · cases sampled
  | snapshotRoomsWithSfu =>
      simp only [sample] at sampled
      split at sampled
      · rename_i all
        cases sampled
        have same : (hint.rooms.map fun room => (room.1, room.2.filterMap fun nickname =>
            (peers.lookup (room.1, nickname)).map fun entry => (nickname, entry.sfuAddr))).map
              Prod.fst = hint.rooms.map Prod.fst := by
          simp only [List.map_map, Function.comp_def]
        refine ⟨⟨same ▸ all.1.1, fun roomId => ?_, fun listed member => ?_⟩, rfl⟩
        · rw [same, all.1.mem_iff]
          simp only [Finset.mem_image, Finmap.mem_keys, Prod.exists, exists_and_right,
            exists_eq_right, Finset.Nonempty, mem_nicknames]
        · obtain ⟨room, chosen, rfl⟩ := List.mem_map.mp member
          have names := all.2 room chosen
          refine ⟨(filterMap_fst_sublist peers room.1 _ _).nodup names.1,
            fun nickname sfuAddr => ?_⟩
          simp only [List.mem_filterMap, Option.map_eq_some_iff, Prod.mk.injEq, names.mem_iff,
            mem_nicknames]
          constructor
          · rintro ⟨_, -, entry, found, rfl, rfl⟩
            exact ⟨entry, found, rfl⟩
          · rintro ⟨entry, found, rfl⟩
            exact ⟨nickname, Finmap.mem_of_lookup_eq_some found, entry, found, rfl, rfl⟩
      · cases sampled

/-- One outcome of a critical section of the session registry. -/
def SessionRegistry.sample (hint : Hint) :
    (command : SessionRegistry.Command) → SessionStore → Option (command.Reply × SessionStore)
  | .upsert sessionId session, store => some ((), store.upsert sessionId session)
  | .get sessionId, store => some (store.bySessionId.lookup sessionId, store)
  | .remove sessionId, store => some ((), store.remove sessionId)
  | .setRoom sessionId roomId, store => some ((), store.setRoom sessionId roomId)
  | .clearRoom roomId, store =>
      if Enumerates hint.names ((store.byRoomId.lookup roomId).getD ∅) then
        some (store.clearRoom roomId hint.names)
      else none
  | .clear, _ => some ((), ⟨∅, ∅⟩)

theorem SessionRegistry.sample_sound {hint : Hint} {command : SessionRegistry.Command}
    {store after : SessionStore} {reply : command.Reply}
    (sampled : sample hint command store = some (reply, after)) :
    exec command store reply after := by
  cases command with
  | get =>
      cases sampled
      exact ⟨rfl, rfl⟩
  | clearRoom roomId =>
      simp only [sample] at sampled
      split at sampled
      · rename_i all
        exact ⟨hint.names, all, (Option.some.inj sampled).symm⟩
      · cases sampled
  | _ =>
      cases sampled
      rfl

end Signaling

namespace World

/-- One outcome of a step. -/
def sample (hint : Hint) : (op : Op) → World → Option (op.Reply × World)
  | .redis command, world =>
      (world.redis.sample hint world.now command).map fun outcome =>
        (.ok outcome.1, { world with redis := outcome.2 })
  | .unixNow, world => some ((world.now / 1000 : ℕ), world)
  | .newUuid, world =>
      match hint.names with
      | [drawn] =>
          if drawn ∉ world.issued ∧ drawn ≠ "" then
            some (drawn, { world with issued := insert drawn world.issued })
          else none
      | _ => none
  | .peers node command, world =>
      (PeerRegistry.sample hint command (world.nodes node).peers).map fun outcome =>
        (outcome.1, world.setNode node { world.nodes node with peers := outcome.2 })
  | .sessions node command, world =>
      (SessionRegistry.sample hint command (world.nodes node).sessions).map fun outcome =>
        (outcome.1, world.setNode node { world.nodes node with sessions := outcome.2 })
  | .trySend sender message, world =>
      some (decide (world.Accepts sender),
        if world.Accepts sender then world.enqueue sender message else world)
  | .sendMessage connection message, world =>
      some (hint.succeeds, if hint.succeeds then world.receive connection message else world)
  | .getContext connection, world => some ((world.connections connection).context, world)
  | .setContext connection change, world =>
      some ((), world.setConnection connection
        { world.connections connection with
          context := change (world.connections connection).context })
  | .createPeer sfuAddr roomId nickname _, world =>
      if hint.succeeds then
        if roomId ≠ "" ∧ nickname ≠ "" ∧ (sfuAddr, roomId, nickname) ∉ world.sfuPeers then
          some (.ok ⟨true, none⟩,
            { world with sfuPeers := insert (sfuAddr, roomId, nickname) world.sfuPeers })
        else none
      else some (.ok ⟨false, some ""⟩, world)
  | .deletePeer sfuAddr roomId nickname _, world =>
      some (.ok ⟨true, none⟩,
        { world with sfuPeers := world.sfuPeers.erase (sfuAddr, roomId, nickname) })
  | .closeRoomsBySfu task, world => some (true, { world with spawned := task ::ₘ world.spawned })
  | .pingSignaling _, world => some (hint.succeeds, world)
  | .pingSfu _, world => some (hint.succeeds, world)
  | _, _ => none

theorem sample_sound {hint : Hint} {op : Op} {world after : World} {reply : op.Reply}
    (sampled : sample hint op world = some (reply, after)) : exec op world reply after := by
  cases op with
  | redis command =>
      obtain ⟨⟨value, redis⟩, found, equal⟩ := Option.map_eq_some_iff.mp sampled
      cases equal
      exact ⟨value, redis, Redis.sample_sound found, rfl, rfl⟩
  | newUuid =>
      simp only [sample] at sampled
      split at sampled
      · split at sampled
        · rename_i fresh
          cases sampled
          exact ⟨fresh, rfl⟩
        · cases sampled
      · cases sampled
  | peers node command =>
      obtain ⟨⟨value, peers⟩, found, equal⟩ := Option.map_eq_some_iff.mp sampled
      cases equal
      exact ⟨peers, PeerRegistry.sample_sound found, rfl⟩
  | sessions node command =>
      obtain ⟨⟨value, sessions⟩, found, equal⟩ := Option.map_eq_some_iff.mp sampled
      cases equal
      exact ⟨sessions, SessionRegistry.sample_sound found, rfl⟩
  | createPeer sfuAddr roomId nickname signalingId =>
      simp only [sample] at sampled
      split at sampled
      · split at sampled
        · rename_i free
          cases sampled
          exact .inl ⟨rfl, free.1, free.2.1, free.2.2, rfl⟩
        · cases sampled
      · cases sampled
        exact .inr ⟨⟨"", rfl⟩, rfl⟩
  | unixNow | trySend | getContext | deletePeer | closeRoomsBySfu =>
      cases sampled
      exact ⟨rfl, rfl⟩
  | setContext | sendMessage | pingSignaling | pingSfu =>
      cases sampled
      rfl
  | _ => cases sampled

/-- A computed run of a program alone whose outcome passes a test. -/
theorem exists_runs {α : Type} (program : Call α) (world : World) (hints : List Hint)
    (test : α → World → Bool)
    (passes : (program.follow sample hints world).any (fun outcome =>
      test outcome.1 outcome.2) = true) :
    ∃ result after, program.Runs World.exec world result after ∧ test result after = true := by
  have sound (hint : Hint) (op : Op) (state : World) (reply : op.Reply) (after : World)
      (sampled : sample hint op state = some (reply, after)) : exec op state reply after :=
    sample_sound sampled
  exact Program.exists_of_follow sound passes

end World

/-- The sampler of a setting that assumes nothing of the outcome chosen. -/
def Threads.sampler (threads : Threads)
    [∀ world op reply, Decidable (threads.assumed world op reply)] :
    threads.system.Sampler Hint where
  sample hint op state :=
    match World.sample hint op state.1 with
    | none => none
    | some (reply, after) =>
        if threads.assumed state.1 op reply then some (reply, (after, state.2)) else none
  sound := by
    intro hint op state reply state' sampled
    split at sampled
    · cases sampled
    · rename_i outcome found
      split at sampled
      · rename_i assumed
        cases sampled
        exact ⟨World.sample_sound found, assumed, rfl⟩
      · cases sampled

/-! ## A small deployment -/

/-- An SFU instance. -/
def sampleSfu : SfuInstance :=
  { instanceId := "sfu-1", grpcAddr := "http://127.0.0.1:50051", maxRooms := 200, alive := true
    state := "ready", lastPingUnix := 0, idleSinceUnix := 0 }

/-- Assign a room of one node to the instance. -/
def World.assignTo (world : World) (roomId : RoomId) : World :=
  { world with redis := world.redis.assign roomId "127.0.0.1" "8080" "127.0.0.1:8080" sampleSfu }

/-- A configuration of that node. -/
def sampleNode : State where
  config :=
    { signalingPublicHost := "127.0.0.1", signalingPublicPort := 8080
      connectorTokenSecret := "dev-connector-token-secret", sessionLockTtlMs := 5000
      loopBound := 2 }

end Callifornia
