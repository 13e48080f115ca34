import Callifornia.Concurrency.Faults
import Callifornia.Replay
import Callifornia.Signaling.Assignment
import Callifornia.Signaling.Footprint

/-! # Entering a room when one command fails

A create or a join runs alone, and at most one of its Redis commands and SFU calls
fails, with or without effect. The handlers undo what they did only after some of
the failures.
-/

namespace Callifornia.Atomicity

open Concurrency Concurrency.Program FiniteMap Store Signaling

/-! ## Failing commands -/

/-- The reply of a command that failed. An SFU that refuses a peer has failed too. -/
def Fails : (op : Op) → op.Reply → Prop
  | .redis _, .error _ => True
  | .createPeer .., .error _ => True
  | .createPeer .., .ok response => response.success = false
  | .deletePeer .., .error _ => True
  | _, _ => False

/-- The failed command may have taken effect; a refusal tells that it has not. -/
def Lost : (op : Op) → op.Reply → Prop
  | .redis _, .error _ => True
  | .createPeer .., .error _ => True
  | .deletePeer .., .error _ => True
  | _, _ => False

def failures : Failures Op Op.Reply := ⟨Fails, Lost⟩

/-- A step when at most one command fails. -/
def exec : (op : Op) → World × Option (Fault Op) → op.Reply → World × Option (Fault Op) → Prop :=
  failures.faulty World.exec

/-- A step that succeeds. -/
abbrev succeeds : (op : Op) → World → op.Reply → World → Prop := failures.Succeeds World.exec

/-! ## The two requests -/

/-- Some instance can take a room. -/
def HasCapacity (store : Redis) (clock staleAfter : ℤ) : Prop :=
  ∃ instanceId record, store.instances.lookup instanceId = some record ∧
    store.Eligible clock staleAfter record

/-- The assignment script may choose this record: it is eligible, and no eligible one is
less loaded. -/
structure Candidate (store : Redis) (clock staleAfter : ℤ) (record : SfuInstance) : Prop where
  stored : ∃ instanceId, store.instances.lookup instanceId = some record
  eligible : store.Eligible clock staleAfter record
  least : ∀ instanceId other, store.instances.lookup instanceId = some other →
    store.Eligible clock staleAfter other →
      store.score .roomLoad record.instanceId ≤ store.score .roomLoad other.instanceId

/-- Whatever the script chooses, its reply can be read. -/
def Legible (store : Redis) (clock : ℤ) : Prop :=
  ∀ record, Candidate store clock 30 record → Assignment.Presentable record

/-- The handlers do not undo what they did before this failure, or the effect it had. -/
def Harmful (store : Redis) : Fault Op → Prop
  | ⟨.redis (.sadd ..), committed⟩ => committed = true
  | ⟨.redis (.smembers _), _⟩ => True
  | ⟨.redis (.hset ..), _⟩ => True
  | ⟨.redis (.assignRoomToSfu _ _ _ _ clock staleAfter), committed⟩ =>
      committed = true ∧ HasCapacity store clock staleAfter
  | ⟨.createPeer .., committed⟩ => committed = true
  | _ => False

/-- A request to enter a room. -/
inductive Request
  | create
  | join (roomId : RoomId)

variable (state : State) (connection : ConnectionId) (sessionId : SessionId)

/-- The handler of a request, without the session's lock. -/
def handler : Request → WsCall Unit
  | .create => handleCreateLocked state connection sessionId
  | .join roomId => handleJoinLocked state connection sessionId roomId

/-- The room the store records for the session. -/
def recordedRoom (world : World) : Option String :=
  (world.redis.sessions.lookup sessionId).bind (·.hash.get "room_id")

/-- The rooms, the load and the SFUs' peers are as before; a missing load counts as zero. -/
structure SameRooms (before after : World) : Prop where
  bindings : after.redis.bindings = before.redis.bindings
  members : after.redis.members = before.redis.members
  load : ∀ instanceId, after.redis.score .roomLoad instanceId =
    before.redis.score .roomLoad instanceId
  recorded : recordedRoom sessionId after = recordedRoom sessionId before
  sfuPeers : after.sfuPeers = before.sfuPeers

/-- The request has left no trace in the rooms, the registries and the SFUs. -/
structure Unchanged (before after : World) : Prop extends SameRooms sessionId before after where
  nodes : after.nodes = before.nodes

/-- What holds of the rooms when no handler runs. -/
structure Sound (world : World) : Prop where
  load : ∀ instanceId, 0 ≤ world.redis.score .roomLoad instanceId
  bound : ∀ roomId ∈ world.redis.bindings, roomId ∈ world.issued
  members : ∀ member ∈ world.redis.members, member.1 ∈ world.issued

/-- The session the connection may use, as the store knows it. -/
def knownSession (world : World) : Option SessionState :=
  if (world.connections connection).context.sessionId.any (· ≠ sessionId) then none
  else (SessionState.ofFields
    (((world.redis.hash (.session sessionId)).map Hash.fields).getD ∅)).filter (·.nickname ≠ "")

/-- The failure comes before the session is known. -/
def Early : Fault Op → Prop
  | ⟨.redis .ping, _⟩ => True
  | ⟨.redis (.hgetall (.session _)), _⟩ => True
  | _ => False

/-- A create that gets as far as the assignment script can read what the script replies. -/
def Readable (world : World) : Request → Prop
  | .create =>
      (∃ session, knownSession connection sessionId world = some session ∧
        session.roomId = none) →
      (world.connections connection).context.allowedIntent = some "create" →
      Legible world.redis (world.now / 1000 : ℕ)
  | .join _ => True

/-- The request either fails before the session is known, or finds the node's registry
in line with the store; what failed is not harmful; and where nothing failed, the
assignment can be read. -/
structure Harmless (request : Request) (world : World) (failed : Option (Fault Op)) : Prop where
  agrees : ∀ session, knownSession connection sessionId world = some session →
    (∀ fault ∈ failed, ¬ Early fault) →
      (world.nodes state.node).sessions.upsert sessionId session =
        (world.nodes state.node).sessions
  undone : ∀ fault ∈ failed, ¬ Harmful world.redis fault
  readable : failed = none → Readable connection sessionId world request

/-! ## Commands that may fail -/

variable {state connection sessionId} {ε : Type} {world : World} {fault : Fault Op}
  {after : World × Option (Fault Op)} {command : Command} {onFailure : RedisFailure → ε}
  {result : Except ε command.Reply} {roomId : RoomId} {nickname : Nickname}

/-- A Redis command succeeds, or fails with or without effect. -/
theorem runs_redis (run : (redisCommand onFailure command).run.Runs exec
      (world, none) result after) :
    (∃ value redis, world.redis.exec world.now command value redis ∧ result = .ok value ∧
      after = ({ world with redis }, none)) ∨
    ∃ error, result = .error error ∧
      (after = (world, some ⟨.redis command, false⟩) ∨
        ∃ value redis, world.redis.exec world.now command value redis ∧
          after = ({ world with redis }, some ⟨.redis command, true⟩)) := by
  obtain ⟨reply, middle, step, rfl, rfl⟩ := run
  obtain ⟨final, failed⟩ := after
  rcases step with ⟨⟨-, value, redis, effect, replied, changed⟩, same⟩ | ⟨fails, -, outcome⟩
  · obtain rfl : final = { world with redis } := changed
    obtain rfl : failed = none := same
    subst replied
    exact .inl ⟨value, redis, effect, rfl, rfl⟩
  · cases reply with
    | ok value => exact fails.elim
    | error failure =>
        refine .inr ⟨_, rfl, ?_⟩
        rcases outcome with none | ⟨-, answer, ⟨-, value, redis, effect, -, changed⟩, same⟩
        · exact .inl none
        · obtain rfl : final = { world with redis } := changed
          obtain rfl : failed = some ⟨.redis command, true⟩ := same
          exact .inr ⟨value, redis, effect, rfl⟩

/-- A command that changes nothing. -/
def Reads (command : Command) : Prop :=
  ∀ now store reply after, Redis.exec now command store reply after → after = store

/-- A read leaves the world as it is, whether it fails or not. -/
theorem runs_read (reads : Reads command)
    (run : (redisCommand onFailure command).run.Runs exec (world, none) result after) :
    (∃ value, world.redis.exec world.now command value world.redis ∧ result = .ok value ∧
      after = (world, none)) ∨
    ∃ error committed, result = .error error ∧ after =
      (world, some ⟨.redis command, committed⟩) := by
  rcases runs_redis run with ⟨value, redis, effect, returned, rfl⟩ | ⟨error, returned, failed⟩
  · obtain rfl := reads _ _ _ _ effect
    exact .inl ⟨value, effect, returned, rfl⟩
  · rcases failed with rfl | ⟨value, redis, effect, rfl⟩
    · exact .inr ⟨error, false, returned, rfl⟩
    · obtain rfl := reads _ _ _ _ effect
      exact .inr ⟨error, true, returned, rfl⟩

/-- A Redis command of which no failure is left. -/
theorem runs_redis_succeeds {last : World}
    (run : (redisCommand onFailure command).run.Runs succeeds world result last) :
    ∃ value redis, world.redis.exec world.now command value redis ∧ result = .ok value ∧
      last = { world with redis } := by
  obtain ⟨reply, middle, ⟨-, value, redis, effect, rfl, rfl⟩, rfl, rfl⟩ := run
  exact ⟨value, redis, effect, rfl, rfl⟩

/-- A step that cannot fail. -/
theorem runs_certain {op : Op} {failed : Option (Fault Op)} {reply : op.Reply}
    (certain : ∀ reply, ¬ Fails op reply)
    (run : (issue op).Runs exec (world, failed) reply after) :
    ∃ last, World.exec op world reply last ∧ after = (last, failed) := by
  obtain ⟨reply, ⟨last, kept⟩, step, rfl, rfl⟩ := run
  rcases step with ⟨⟨-, step⟩, same⟩ | ⟨fails, -⟩
  · obtain rfl : kept = failed := same
    exact ⟨last, step, rfl⟩
  · exact absurd fails (certain _)

/-- The context is read without fail. -/
theorem runs_getContext {failed : Option (Fault Op)} {context : ConnectionContext}
    (run : (getContext connection).Runs exec (world, failed) context after) :
    context = (world.connections connection).context ∧ after = (world, failed) := by
  obtain ⟨last, ⟨read, same⟩, rfl⟩ := runs_certain (fun _ => id) run
  exact ⟨read, same ▸ rfl⟩

/-! ## Admission -/

/-- The connection and the registry after the session was checked. -/
def admitted (state : State) (connection : ConnectionId) (sessionId : SessionId)
    (session : SessionState) (world : World) : World :=
  let known := world.setConnection connection
    { world.connections connection with
      context := { (world.connections connection).context with
        sessionId := some sessionId, cachedSession := some session } }
  known.setNode state.node
    { known.nodes state.node with
      sessions := (known.nodes state.node).sessions.upsert sessionId session }

/-- A ping reads. -/
theorem reads_ping : Reads .ping := fun _ _ _ _ step => step

/-- The fields of a hash are read. -/
theorem reads_hgetall (key : HashKey) : Reads (.hgetall key) := fun _ _ _ _ step => step.2

/-- The existence of a key is read. -/
theorem reads_exists (key : HashKey) : Reads (.exists key) := fun _ _ _ _ step => step.2

/-- A membership is read. -/
theorem reads_sismember : Reads (.sismember roomId nickname) := fun _ _ _ _ step => step.2

/-- The members are read. -/
theorem reads_smembers : Reads (.smembers roomId) := fun _ _ _ _ step => step.2

/-- Redis answers, or the `PING` is what failed. -/
theorem requireRedis_runs {result : Except WsHandlerError Unit}
    (run : requireRedis.run.Runs exec (world, none) result after) :
    (result = .ok () ∧ after = (world, none)) ∨
      ∃ committed, result = .error .redisError ∧ after =
        (world, some ⟨.redis .ping, committed⟩) := by
  obtain ⟨available, middle, ping, rest⟩ := runs_lift_bind.mp run
  have pinged : (available = true ∧ middle = (world, none)) ∨
      ∃ committed, available = false ∧ middle = (world, some ⟨.redis .ping, committed⟩) := by
    obtain ⟨reply, last, step, ping⟩ := ping
    have read : (redisCommand id Command.ping).run.Runs exec (world, none)
      (reply.mapError id) last :=
      ⟨reply, last, step, rfl, rfl⟩
    rcases runs_read reads_ping read with
      ⟨value, -, returned, rfl⟩ | ⟨error, committed, returned, rfl⟩
    · cases reply with
      | error failure => cases returned
      | ok value => exact .inl ping
    · cases reply with
      | ok value => cases returned
      | error failure => exact .inr ⟨committed, ping⟩
  rcases pinged with ⟨rfl, rfl⟩ | ⟨committed, rfl, rfl⟩
  · exact .inl rest
  · exact .inr ⟨committed, rest⟩

/-- The session is admitted, or the world is as it was. -/
theorem checkSession_runs {result : Except WsHandlerError SessionState}
    (run : (checkSession state connection sessionId).run.Runs exec (world, none) result after) :
    (∃ session, knownSession connection sessionId world = some session ∧ result = .ok session ∧
      after = (admitted state connection sessionId session world, none)) ∨
    ∃ error, result = .error error ∧
      ((knownSession connection sessionId world = none ∧ after = (world, none)) ∨
        ∃ fault, Early fault ∧ after = (world, some fault)) := by
  obtain ⟨context, middle, read, run⟩ := runs_lift_bind.mp run
  obtain ⟨rfl, rfl⟩ := runs_getContext read
  split at run
  · rename_i other
    obtain ⟨rfl, rfl⟩ := run
    exact .inr ⟨_, rfl, .inl ⟨if_pos other, rfl⟩⟩
  · rename_i own
    obtain ⟨available, middle, ping, run⟩ := runs_except_bind.mp run
    rcases requireRedis_runs ping with ⟨rfl, rfl⟩ | ⟨committed, rfl, rfl⟩
    · obtain ⟨found, middle, read, run⟩ := runs_except_bind.mp run
      obtain ⟨reply, fetch, rfl⟩ := runs_adapt.mp read
      obtain ⟨values, _, fetch, rest⟩ := runs_except_bind.mp fetch
      rcases runs_read (reads_hgetall _) fetch with
        ⟨value, ⟨rfl, -⟩, rfl, rfl⟩ | ⟨error, committed, rfl, rfl⟩
      · obtain ⟨rfl, rfl⟩ := rest
        have known : knownSession connection sessionId world = _ := if_neg own
        dsimp only [Except.mapError] at run
        rw [← known] at run
        cases found : knownSession connection sessionId world with
        | none =>
            rw [found] at run
            obtain ⟨rfl, rfl⟩ := run
            exact .inr ⟨_, rfl, .inl ⟨rfl, rfl⟩⟩
        | some session =>
            rw [found] at run
            obtain ⟨_, middle, written, run⟩ := runs_lift_bind.mp run
            obtain ⟨_, rfl, rfl⟩ := runs_certain (fun _ => id) written
            obtain ⟨_, middle, upserted, rfl, rfl⟩ := runs_lift_bind.mp run
            obtain ⟨_, ⟨_, rfl, rfl⟩, rfl⟩ := runs_certain (fun _ => id) upserted
            exact .inl ⟨session, rfl, rfl, rfl⟩
      · obtain ⟨rfl, rfl⟩ := rest
        obtain ⟨rfl, rfl⟩ := run
        exact .inr ⟨_, rfl, .inr
          ⟨⟨.redis (.hgetall (.session sessionId)), committed⟩, trivial, rfl⟩⟩
    · obtain ⟨rfl, rfl⟩ := run
      exact .inr ⟨_, rfl, .inr ⟨⟨.redis .ping, committed⟩, trivial, rfl⟩⟩

/-! ## Becoming a member and a peer -/

/-- The participant is a member. -/
def joined (roomId : RoomId) (nickname : Nickname) (world : World) : World :=
  { world with redis := { world.redis with
      members := insert (roomId, nickname) world.redis.members } }

/-- The SFU holds the participant's peer. -/
def connected (sfuAddr : Address) (roomId : RoomId) (nickname : Nickname) (world : World) :
    World :=
  { world with sfuPeers := insert (sfuAddr, roomId, nickname) world.sfuPeers }

/-- A join adds its member, or fails: harmfully exactly when the member is there. -/
theorem joinRoom_runs {result : Except RedisRoomError (List Nickname)}
    (run : (joinRoom roomId nickname).run.Runs exec (world, none) result after) :
    (∃ participants, result = .ok participants ∧ (roomId, nickname) ∉ world.redis.members ∧
      after = (joined roomId nickname world, none)) ∨
    ∃ error, result = .error error ∧
      ((after = (world, none) ∧
          (world.redis.bindings.lookup roomId = none ∨ (roomId, nickname) ∈ world.redis.members)) ∨
        (∃ fault, (∀ store, ¬ Harmful store fault) ∧ ¬ Early fault ∧ after = (world, some fault)) ∨
        ∃ fault, (∀ store, Harmful store fault) ∧ (roomId, nickname) ∉ world.redis.members ∧
          after = (joined roomId nickname world, some fault)) := by
  obtain ⟨bound, _, looked, run⟩ := runs_except_bind.mp run
  rcases runs_read (reads_exists _) looked with ⟨bound, ⟨found, -⟩, rfl, rfl⟩ |
    ⟨error, committed, rfl, rfl⟩
  · cases bound with
    | false =>
        obtain ⟨rfl, rfl⟩ := run
        exact .inr ⟨_, rfl, .inl ⟨rfl, .inl (Option.not_isSome_iff_eq_none.mp
          (Bool.eq_false_iff.mp found.symm))⟩⟩
    | true =>
        obtain ⟨taken, _, looked, run⟩ := runs_except_bind.mp run
        rcases runs_read reads_sismember looked with ⟨taken, ⟨taken_eq, -⟩, rfl, rfl⟩ |
          ⟨error, committed, rfl, rfl⟩
        · cases taken with
          | true =>
              obtain ⟨rfl, rfl⟩ := run
              exact .inr ⟨_, rfl, .inl ⟨rfl, .inr (of_decide_eq_true taken_eq.symm)⟩⟩
          | false =>
              have free : (roomId, nickname) ∉ world.redis.members :=
                of_decide_eq_false taken_eq.symm
              obtain ⟨_, _, added, run⟩ := runs_except_bind.mp run
              rcases runs_redis added with ⟨_, redis, rfl, rfl, rfl⟩ | ⟨error, rfl, failed⟩
              · obtain ⟨participants, _, listed, run⟩ := runs_except_bind.mp run
                rcases runs_read reads_smembers listed with ⟨participants, -, rfl, rfl⟩ |
                  ⟨error, committed, rfl, rfl⟩
                · obtain ⟨rfl, rfl⟩ := run
                  exact .inl ⟨_, rfl, free, rfl⟩
                · obtain ⟨rfl, rfl⟩ := run
                  exact .inr ⟨_, rfl, .inr (.inr
                    ⟨⟨.redis (.smembers roomId), committed⟩, fun _ => trivial, free, rfl⟩)⟩
              · obtain ⟨rfl, rfl⟩ := run
                rcases failed with rfl | ⟨_, redis, rfl, rfl⟩
                · exact .inr ⟨_, rfl, .inr (.inl
                    ⟨⟨.redis (.sadd roomId nickname), false⟩,
                      fun _ => Bool.false_ne_true, id, rfl⟩)⟩
                · exact .inr ⟨_, rfl, .inr (.inr
                    ⟨⟨.redis (.sadd roomId nickname), true⟩, fun _ => rfl, free, rfl⟩)⟩
        · obtain ⟨rfl, rfl⟩ := run
          exact .inr ⟨_, rfl, .inr (.inl
            ⟨⟨.redis (.sismember roomId nickname), committed⟩, fun _ => id, id, rfl⟩)⟩
  · obtain ⟨rfl, rfl⟩ := run
    exact .inr ⟨_, rfl, .inr
      (.inl ⟨⟨.redis (.exists (.binding roomId)), committed⟩, fun _ => id, id, rfl⟩)⟩

/-- The SFU creates the peer, or the call fails: harmfully exactly when the peer is there. -/
theorem ensurePeer_runs {sfuAddr : Address} {result : Except SfuClientError Unit}
    (run : (state.ensurePeer sfuAddr roomId nickname).Runs exec (world, none) result after) :
    (result = .ok () ∧ after = (connected sfuAddr roomId nickname world, none)) ∨
    ∃ error fault, result = .error error ∧
      (((∀ store, ¬ Harmful store fault) ∧ ¬ Early fault ∧ after = (world, some fault)) ∨
        ((∀ store, Harmful store fault) ∧ (sfuAddr, roomId, nickname) ∉ world.sfuPeers ∧
          after = (connected sfuAddr roomId nickname world, some fault))) := by
  obtain ⟨reply, ⟨last, failed⟩, step, rfl, rfl⟩ := run
  rcases step with ⟨⟨works, step⟩, same⟩ | ⟨fails, -, outcome⟩
  · obtain rfl : failed = none := same
    rcases step with ⟨rfl, -, -, -, rfl⟩ | ⟨⟨message, rfl⟩, -⟩
    · exact .inl ⟨rfl, rfl⟩
    · exact absurd rfl works
  · have failed_ : ∃ error, reply.bind (State.ensureSuccess · "SFU failed to create peer") =
        .error error := by
      cases reply with
      | error error => exact ⟨error, rfl⟩
      | ok response =>
          have refused : ¬ response.success = true := Bool.eq_false_iff.mp fails
          exact ⟨_, if_neg refused⟩
    obtain ⟨error, returned⟩ := failed_
    refine .inr ⟨error, ?_⟩
    rcases outcome with none | ⟨-, answer, ⟨works, step⟩, same⟩
    · obtain ⟨rfl, rfl⟩ := Prod.mk.inj none
      exact ⟨⟨.createPeer sfuAddr roomId nickname state.node, false⟩, returned,
        .inl ⟨fun _ => Bool.false_ne_true, id, rfl⟩⟩
    · obtain rfl : failed = _ := same
      rcases step with ⟨rfl, -, -, free, rfl⟩ | ⟨⟨message, rfl⟩, -⟩
      · exact ⟨⟨.createPeer sfuAddr roomId nickname state.node, true⟩, returned,
          .inr ⟨fun _ => rfl, free, rfl⟩⟩
      · exact absurd rfl works

/-! ## Undoing -/

/-- The member is removed again. -/
theorem undoJoin_runs (run : (undoJoin roomId nickname).Runs exec (world, some fault) () after) :
    after = ({ world with redis := { world.redis with
      members := world.redis.members.erase (roomId, nickname) } }, some fault) := by
  obtain ⟨final, kept⟩ := after
  obtain ⟨run, rfl⟩ := Failures.runs_spent run
  obtain ⟨_, _, removed, -, same⟩ := runs_bind.mp run
  obtain ⟨_, _, removed, rest⟩ := runs_except_bind.mp removed
  obtain ⟨_, redis, ⟨-, rfl⟩, rfl, rfl⟩ := runs_redis_succeeds removed
  obtain ⟨-, rfl⟩ := rest
  exact congrArg (·, some fault) same

/-- The parts of the world that giving back a slot may not change. -/
structure KeepsRooms (before after : World) : Prop where
  bindings : after.redis.bindings = before.redis.bindings
  members : after.redis.members = before.redis.members
  sessions : after.redis.sessions = before.redis.sessions
  load : after.redis.scores .roomLoad = before.redis.scores .roomLoad
  nodes : after.nodes = before.nodes
  sfuPeers : after.sfuPeers = before.sfuPeers

/-- Marking an instance idle keeps the rooms. -/
theorem keepsRooms_idle {instanceId : InstanceId} {time : ℤ} {last : World}
    {result : Except RedisRoomError Unit}
    (run : (updateSfuIdleSince instanceId time).run.Runs succeeds world result last) :
    KeepsRooms world last := by
  have only : (updateSfuIdleSince instanceId time).run.Only
      fun op => op = .redis (.hgetInstance instanceId) ∨
        ∃ record, op = .redis (.hsetInstance instanceId record) :=
    updateSfuIdleSince_only (.inl rfl) fun record => .inr ⟨record, rfl⟩
  refine only.runs (fun _ => ⟨rfl, rfl, rfl, rfl, rfl, rfl⟩) ?_ ?_ run
  · intro first second third before after
    exact ⟨after.bindings.trans before.bindings, after.members.trans before.members,
      after.sessions.trans before.sessions, after.load.trans before.load,
      after.nodes.trans before.nodes, after.sfuPeers.trans before.sfuPeers⟩
  · intro op first reply second either step
    obtain ⟨-, step⟩ := step
    rcases either with rfl | ⟨record, rfl⟩
    · obtain ⟨_, redis, ⟨-, rfl⟩, -, rfl⟩ := step
      exact ⟨rfl, rfl, rfl, rfl, rfl, rfl⟩
    · obtain ⟨_, redis, rfl, -, rfl⟩ := step
      exact ⟨rfl, rfl, rfl, rfl, rfl, rfl⟩

/-- The binding of a room is gone and its slot given back. -/
structure Released (roomId : RoomId) (instanceId : InstanceId) (before after : World) : Prop where
  bindings : after.redis.bindings = before.redis.bindings.erase roomId
  members : after.redis.members = before.redis.members
  sessions : after.redis.sessions = before.redis.sessions
  load : ∀ query, after.redis.score .roomLoad query =
    if query = instanceId then decremented ((before.redis.scores .roomLoad).lookup instanceId)
    else before.redis.score .roomLoad query
  nodes : after.nodes = before.nodes
  sfuPeers : after.sfuPeers = before.sfuPeers

/-- The slot of an instance is given back. -/
def freed (instanceId : InstanceId) (store : Redis) : Redis :=
  store.zadd .roomLoad instanceId (decremented ((store.scores .roomLoad).lookup instanceId))

/-- The release of a slot keeps the rooms but for one load. -/
theorem decrementSfuRoomLoad_runs {instanceId : InstanceId} {last : World}
    {result : Except RedisRoomError Unit}
    (run : (decrementSfuRoomLoad instanceId).run.Runs succeeds world result last) :
    KeepsRooms { world with redis := freed instanceId world.redis } last := by
  obtain ⟨_, _, scored, run⟩ := runs_except_bind.mp run
  obtain ⟨current, redis, ⟨rfl, rfl⟩, rfl, rfl⟩ := runs_redis_succeeds scored
  obtain ⟨_, _, written, run⟩ := runs_except_bind.mp run
  obtain ⟨_, redis, rfl, rfl, rfl⟩ := runs_redis_succeeds written
  change (if decremented ((world.redis.scores .roomLoad).lookup instanceId) = 0 then _ else _ :
    RedisCall Unit).run.Runs _ _ _ _ at run
  split at run
  · obtain ⟨time, _, ⟨_, _, ⟨-, -, rfl⟩, -, rfl⟩, run⟩ := runs_lift_bind.mp run
    exact keepsRooms_idle run
  · obtain ⟨-, rfl⟩ := run
    exact ⟨rfl, rfl, rfl, rfl, rfl, rfl⟩

/-- The binding is closed again. -/
theorem undoBinding_runs {binding : Hash} {instanceId : InstanceId}
    (bound : world.redis.bindings.lookup roomId = some binding)
    (assigned : binding.get "sfu_instance_id" = some instanceId)
    (run : (undoBinding roomId).Runs exec (world, some fault) () after) :
    ∃ last, after = (last, some fault) ∧ Released roomId instanceId world last := by
  obtain ⟨final, kept⟩ := after
  obtain ⟨run, rfl⟩ := Failures.runs_spent run
  refine ⟨final, rfl, ?_⟩
  obtain ⟨_, _, closed, -, same⟩ := runs_bind.mp run
  obtain ⟨_, _, read, run⟩ := runs_except_bind.mp (same ▸ closed)
  obtain ⟨found, redis, ⟨rfl, rfl⟩, rfl, rfl⟩ := runs_redis_succeeds read
  obtain ⟨_, _, removed, run⟩ := runs_except_bind.mp run
  obtain ⟨count, redis, ⟨rfl, rfl⟩, rfl, rfl⟩ := runs_redis_succeeds removed
  have hash : world.redis.hash (.binding roomId) = some binding := bound
  simp only [hash, Option.isSome_some, ↓reduceIte, one_ne_zero, Option.bind_some, assigned] at run
  obtain ⟨_, middle, run, rest⟩ := runs_except_bind.mp run
  obtain ⟨bindings, members, sessions, load, nodes, sfuPeers⟩ := decrementSfuRoomLoad_runs run
  have released : Released roomId instanceId world middle := by
    refine ⟨bindings, members, sessions, fun query => ?_, nodes, sfuPeers⟩
    rw [Redis.score, load]
    exact Redis.score_zadd _ _ _ _ _
  split at rest
  · exact rest.2 ▸ released
  · exact rest.2 ▸ released

/-! ## The rest of a handler, by what failed -/

/-- The registries are those of the base, and the rooms are exactly if nothing harmful
has failed and, where nothing failed at all, the assignment could be read. -/
structure Settled (sessionId : SessionId) (readable : Prop) (base : World)
    (after : World × Option (Fault Op)) : Prop where
  nodes : after.1.nodes = base.nodes
  late : ∀ fault ∈ after.2, ¬ Early fault
  rooms : SameRooms sessionId base after.1 ↔
    (∀ fault ∈ after.2, ¬ Harmful base.redis fault) ∧ (after.2 = none → readable)

/-- An early fault is harmless. -/
theorem not_harmful_of_early {store : Redis} (early : Early fault) : ¬ Harmful store fault := by
  obtain ⟨op, committed⟩ := fault
  cases op with
  | redis command =>
      cases command with
      | ping | hgetall => exact id
      | _ => exact early.elim
  | _ => exact early.elim

namespace Settled

variable {readable : Prop} {base last : World}

/-- Nothing failed and nothing changed. -/
theorem idle (base : World) (holds : readable) : Settled sessionId readable base (base, none) :=
  ⟨rfl, nofun, iff_of_true ⟨rfl, rfl, fun _ => rfl, rfl, rfl⟩ ⟨nofun, fun _ => holds⟩⟩

/-- Nothing failed, and yet the rooms have changed: the assignment was written, but its
reply could not be read. -/
theorem unread (nodes : last.nodes = base.nodes) (changed : ¬ SameRooms sessionId base last)
    (fails : ¬ readable) : Settled sessionId readable base (last, none) :=
  ⟨nodes, nofun, iff_of_false changed fun both => fails (both.2 rfl)⟩

/-- The failure was undone, or had no effect. -/
theorem harmless (nodes : last.nodes = base.nodes) (same : SameRooms sessionId base last)
    (harmless : ¬ Harmful base.redis fault) (late : ¬ Early fault) :
    Settled sessionId readable base (last, some fault) := by
  have only {kind : Fault Op → Prop} (holds : kind fault) : ∀ other ∈ some fault, kind other := by
    intro other member
    rwa [← Option.some.inj member]
  exact ⟨nodes, only late, iff_of_true same ⟨only harmless, nofun⟩⟩

/-- The failure left something behind. -/
theorem harmful (nodes : last.nodes = base.nodes) (changed : ¬ SameRooms sessionId base last)
    (harmful : Harmful base.redis fault) :
    Settled sessionId readable base (last, some fault) := by
  refine ⟨nodes, ?_, iff_of_false changed fun both => both.1 fault rfl harmful⟩
  intro other member early
  obtain rfl := Option.some.inj member
  exact not_harmful_of_early early harmful

end Settled

/-- Only the store, the registries and the SFUs of the base matter. -/
theorem Settled.congr {readable : Prop} {base other : World}
    (settled : Settled sessionId readable base after) (redis : base.redis = other.redis)
    (nodes : base.nodes = other.nodes) (sfuPeers : base.sfuPeers = other.sfuPeers) :
    Settled sessionId readable other after := by
  obtain ⟨now, _, issued, _, _, connections, spawned⟩ := base
  obtain ⟨kept, late, rooms⟩ := settled
  simp only at redis nodes sfuPeers
  subst redis nodes sfuPeers
  refine ⟨kept, late, Iff.trans ⟨fun same => ?_, fun same => ?_⟩ rooms⟩
  · exact ⟨same.bindings, same.members, same.load, same.recorded, same.sfuPeers⟩
  · exact ⟨same.bindings, same.members, same.load, same.recorded, same.sfuPeers⟩

/-- A member too many. -/
theorem not_same_of_member {base last : World} (free : (roomId, nickname) ∉ base.redis.members)
    (member : (roomId, nickname) ∈ last.redis.members) : ¬ SameRooms sessionId base last :=
  fun same => free (same.members ▸ member)

/-- A peer too many. -/
theorem not_same_of_peer {base last : World} {peer : Address × RoomId × Nickname}
    (free : peer ∉ base.sfuPeers) (held : peer ∈ last.sfuPeers) :
    ¬ SameRooms sessionId base last :=
  fun same => free (same.sfuPeers ▸ held)

/-- The program cannot fail. -/
def Certain {ε : Type} (program : ExceptT ε Call Unit) : Prop :=
  ∀ before error after, ¬ program.run.Runs exec before (.error error) after

/-- A lifted program cannot fail. -/
theorem certain_lift {program : Call Unit} : Certain (liftM program : WsCall Unit) := by
  intro before error after run
  obtain ⟨_, _, -, returned, -⟩ := runs_bind.mp run
  cases returned

/-- Nor can one with a lifted part in front of it. -/
theorem certain_bind {first : Call Unit} {rest : WsCall Unit} (second : Certain rest) :
    Certain (liftM first >>= fun _ => rest : WsCall Unit) := by
  intro before error after run
  obtain ⟨_, middle, -, run⟩ := runs_lift_bind.mp run
  exact second middle error after run

/-- From the record on, the only error that is not a failed write is a failed record,
which nothing undoes. -/
theorem record_runs {message : ServerMessage} {rest : WsCall Unit} {error : WsHandlerError}
    (certain : Certain rest) (other : error ≠ .writeFailed)
    (run : (do
      recordRoom state connection sessionId roomId
      sendMessage connection message
      rest : WsCall Unit).run.Runs exec (world, none) (.error error) after) :
    ∃ last fault, after = (last, some fault) ∧ (∀ store, Harmful store fault) ∧
      last.nodes = world.nodes ∧ last.redis.members = world.redis.members := by
  obtain ⟨recorded, _, first, run⟩ := runs_except_bind.mp run
  obtain ⟨outcome, _, first, second⟩ := runs_except_bind.mp first
  obtain ⟨reply, written, rfl⟩ := runs_adapt.mp first
  rcases runs_redis written with ⟨_, redis, -, rfl, rfl⟩ | ⟨failure, rfl, failed⟩
  · obtain ⟨_, _, -, second⟩ := runs_lift_bind.mp second
    obtain ⟨_, _, -, rfl, rfl⟩ := runs_bind.mp second
    obtain ⟨sent, _, first, run⟩ := runs_except_bind.mp run
    obtain ⟨accepted, _, -, first⟩ := runs_lift_bind.mp first
    cases accepted with
    | true =>
        obtain ⟨rfl, rfl⟩ := first
        exact absurd run (certain _ _ _)
    | false =>
        obtain ⟨rfl, rfl⟩ := first
        obtain ⟨same, -⟩ := run
        exact absurd (Except.error.inj same) other
  · obtain ⟨rfl, rfl⟩ := second
    obtain ⟨-, rfl⟩ := run
    rcases failed with rfl | ⟨_, redis, rfl, rfl⟩
    · exact ⟨_, _, rfl, fun _ => trivial, rfl, rfl⟩
    · exact ⟨_, _, rfl, fun _ => trivial, rfl, rfl⟩

/-! ## Join -/

/-- Entering a room succeeds, or settles what it has done before the fault. -/
theorem enterRoom_runs (sessionId : SessionId) {sfuAddr : Address}
    {result : Except WsHandlerError (List Nickname)}
    (run : (enterRoom state sfuAddr roomId nickname).run.Runs exec (world, none) result after) :
    (∃ participants, result = .ok participants ∧ (roomId, nickname) ∉ world.redis.members ∧
      after = (connected sfuAddr roomId nickname (joined roomId nickname world), none)) ∨
    ∃ error, result = .error error ∧ Settled sessionId True world after := by
  obtain ⟨outcome, _, first, run⟩ := runs_except_bind.mp run
  obtain ⟨reply, joins, rfl⟩ := runs_adapt.mp first
  rcases joinRoom_runs joins with ⟨participants, rfl, free, rfl⟩ | ⟨error, rfl, failed⟩
  · obtain ⟨created, _, first, run⟩ := runs_lift_bind.mp run
    rcases ensurePeer_runs first with ⟨rfl, rfl⟩ | ⟨error, fault, rfl, failed⟩
    · obtain ⟨rfl, rfl⟩ := run
      exact .inl ⟨_, rfl, free, rfl⟩
    · obtain ⟨_, _, undone, rfl, rfl⟩ := runs_lift_bind.mp run
      refine .inr ⟨_, rfl, ?_⟩
      have erased : (insert (roomId, nickname) world.redis.members).erase (roomId, nickname) =
          world.redis.members := Finset.erase_insert free
      rcases failed with ⟨harmless, late, rfl⟩ | ⟨harmful, absent, rfl⟩
      · rw [undoJoin_runs undone]
        exact .harmless rfl ⟨rfl, erased, fun _ => rfl, rfl, rfl⟩ (harmless _) late
      · rw [undoJoin_runs undone]
        exact .harmful rfl (not_same_of_peer absent (Finset.mem_insert_self _ _)) (harmful _)
  · obtain ⟨rfl, rfl⟩ := run
    refine .inr ⟨_, rfl, ?_⟩
    rcases failed with ⟨rfl, -⟩ | ⟨fault, harmless, late, rfl⟩ | ⟨fault, harmful, free, rfl⟩
    · exact .idle world trivial
    · exact .harmless rfl ⟨rfl, rfl, fun _ => rfl, rfl, rfl⟩ (harmless _) late
    · exact .harmful rfl (not_same_of_member free (Finset.mem_insert_self _ _)) (harmful _)

/-- Finding the room to join changes nothing. -/
theorem joinTarget_runs (sessionId : SessionId) {result : Except WsHandlerError Address}
    (run : (joinTarget state roomId).run.Runs exec (world, none) result after) :
    (∃ sfuAddr, result = .ok sfuAddr ∧ after = (world, none)) ∨
      ∃ error, result = .error error ∧ Settled sessionId True world after := by
  obtain ⟨outcome, _, first, run⟩ := runs_except_bind.mp run
  obtain ⟨reply, fetch, rfl⟩ := runs_adapt.mp first
  obtain ⟨values, _, read, rest⟩ := runs_except_bind.mp fetch
  rcases runs_read (reads_hgetall _) read with ⟨values, -, rfl, rfl⟩ |
    ⟨error, committed, rfl, rfl⟩
  · obtain ⟨rfl, rfl⟩ := rest
    cases parsed : RoomRoute.ofFields values with
    | error error =>
        rw [parsed] at run
        obtain ⟨rfl, rfl⟩ := run
        exact .inr ⟨_, rfl, .idle world trivial⟩
    | ok route =>
        rw [parsed] at run
        change (if (!isLocalTarget state route) = true then _ else _ : WsCall Address).run.Runs
          _ _ _ _ at run
        split at run
        · obtain ⟨rfl, rfl⟩ := run
          exact .inr ⟨_, rfl, .idle world trivial⟩
        · split at run
          · obtain ⟨rfl, rfl⟩ := run
            exact .inr ⟨_, rfl, .idle world trivial⟩
          · split at run
            · obtain ⟨rfl, rfl⟩ := run
              exact .inr ⟨_, rfl, .idle world trivial⟩
            · obtain ⟨rfl, rfl⟩ := run
              exact .inl ⟨_, rfl, rfl⟩
  · obtain ⟨rfl, rfl⟩ := rest
    obtain ⟨rfl, rfl⟩ := run
    exact .inr ⟨_, rfl, .harmless rfl ⟨rfl, rfl, fun _ => rfl, rfl, rfl⟩ id id⟩

/-- A join after its admission. -/
theorem joinRest_runs {session : SessionState} {error : WsHandlerError}
    (other : error ≠ .writeFailed)
    (run : (do
      let sfuAddr ← joinTarget state roomId
      let participants ← enterRoom state sfuAddr roomId session.nickname
      recordRoom state connection sessionId roomId
      sendMessage connection (.joined roomId session.nickname participants)
      state.register roomId session.nickname ⟨connection, some sfuAddr⟩
      announce state roomId session.nickname (.participantJoined session.nickname) :
        WsCall Unit).run.Runs exec (world, none) (.error error) after) :
    Settled sessionId True world after := by
  obtain ⟨target, _, first, run⟩ := runs_except_bind.mp run
  rcases joinTarget_runs sessionId first with ⟨sfuAddr, rfl, rfl⟩ | ⟨error, rfl, settled⟩
  · obtain ⟨entered, _, first, run⟩ := runs_except_bind.mp run
    rcases enterRoom_runs sessionId first with
      ⟨participants, rfl, free, rfl⟩ | ⟨error, rfl, settled⟩
    · obtain ⟨last, fault, rfl, harmful, nodes, members⟩ :=
        record_runs (certain_bind certain_lift) other run
      refine .harmful nodes (not_same_of_member free ?_) (harmful _)
      rw [members]
      exact Finset.mem_insert_self _ _
    · obtain ⟨-, rfl⟩ := run
      exact settled
  · obtain ⟨-, rfl⟩ := run
    exact settled

/-! ## Create -/

/-- The room is bound to an instance of the node's choice. -/
def assigned (state : State) (roomId : RoomId) (best : SfuInstance) (world : World) : World :=
  { world with
    redis := world.redis.assign roomId state.config.signalingPublicHost
      (toString state.config.signalingPublicPort.toNat) state.config.publicNodeId best }

/-- The script for a new room assigns one of its candidates exactly when it has one. -/
theorem exec_assign_cases {now : ℕ} {ownerHost ownerPort ownerId : String} {clock staleAfter : ℤ}
    {store last : Redis} {reply : List String} (unbound : store.bindings.lookup roomId = none)
    (step : Redis.exec now (.assignRoomToSfu roomId ownerHost ownerPort ownerId clock staleAfter)
      store reply last) :
    (¬ HasCapacity store clock staleAfter ∧ reply = [] ∧ last = store) ∨
      ∃ best, Candidate store clock staleAfter best ∧
        reply = [best.instanceId, best.grpcAddr] ∧
        last = store.assign roomId ownerHost ownerPort ownerId best := by
  obtain ⟨records, lists, outcome⟩ := step
  unfold Redis.assignRoomToSfu at outcome
  cases chosen : store.bestInstance clock staleAfter records with
  | none =>
      rw [chosen] at outcome
      obtain ⟨replied, same⟩ := Prod.mk.inj outcome
      refine .inl ⟨?_, replied, same⟩
      intro ⟨instanceId, record, found, eligible⟩
      exact (Redis.bestInstance_eq_none store).mp chosen record
        ((Redis.Lists.mem_iff store lists).mpr ⟨instanceId, found⟩) eligible
  | some best =>
      rw [chosen, unbound] at outcome
      obtain ⟨replied, same⟩ := Prod.mk.inj outcome
      obtain ⟨origin, least⟩ := Assignment.foldl_betterInstance_least chosen
      have member : best ∈ records := Redis.bestInstance_mem store chosen
      have candidate : Candidate store clock staleAfter best := by
        refine ⟨(Redis.Lists.mem_iff store lists).mp member, origin.resolve_right nofun, ?_⟩
        intro instanceId other found eligible
        exact least other (.inr ⟨(Redis.Lists.mem_iff store lists).mpr ⟨_, found⟩, eligible⟩)
      exact .inr ⟨best, candidate, replied, same⟩

/-- A candidate can be chosen. -/
theorem Candidate.hasCapacity {store : Redis} {clock staleAfter : ℤ} {record : SfuInstance}
    (candidate : Candidate store clock staleAfter record) : HasCapacity store clock staleAfter := by
  obtain ⟨instanceId, found⟩ := candidate.stored
  exact ⟨instanceId, record, found, candidate.eligible⟩

/-- A new binding is one too many. -/
theorem not_same_of_assigned {best : SfuInstance} {last : World}
    (unbound : world.redis.bindings.lookup roomId = none)
    (bindings : last.redis.bindings = (assigned state roomId best world).redis.bindings) :
    ¬ SameRooms sessionId world last := by
  intro same
  have looked := congrArg (Finmap.lookup roomId) same.bindings
  rw [unbound, bindings] at looked
  exact absurd (looked.symm.trans (Finmap.lookup_insert _)) nofun

/-- The room gets its binding and the reply is read, or the rooms are settled. -/
theorem assign_runs (sessionId : SessionId) {result : Except WsHandlerError SfuAssignment}
    (run : (redis (assignRoomToLeastLoadedSfu roomId state.config.publicNodeId
      state.config.signalingPublicHost state.config.signalingPublicPort)).run.Runs exec
        (world, none) result after)
    (unbound : world.redis.bindings.lookup roomId = none) :
    (∃ best, result = .ok ⟨best.grpcAddr⟩ ∧ after = (assigned state roomId best world, none)) ∨
      ∃ error, result = .error error ∧
        Settled sessionId (Legible world.redis (world.now / 1000 : ℕ)) world after := by
  obtain ⟨reply, call, rfl⟩ := runs_adapt.mp run
  obtain ⟨clock, _, read, call⟩ := runs_lift_bind.mp call
  obtain ⟨_, ⟨rfl, same⟩, rfl⟩ := runs_certain (fun _ => id) read
  rw [same] at call
  obtain ⟨replied, _, first, run⟩ := runs_except_bind.mp call
  rcases runs_redis first with ⟨value, redis, effect, rfl, rfl⟩ | ⟨error, rfl, failed⟩
  · obtain ⟨rfl, rfl⟩ := run
    rcases exec_assign_cases unbound effect with ⟨none, rfl, rfl⟩ | ⟨best, candidate, rfl, rfl⟩
    · refine .inr ⟨_, rfl, .idle world fun record candidate => ?_⟩
      exact absurd candidate.hasCapacity none
    · -- the script has written the binding before its reply is looked at
      dsimp only [Except.bind, liftM, Except.mapError]
      have changed : ¬ SameRooms sessionId world (assigned state roomId best world) :=
        not_same_of_assigned unbound rfl
      by_cases presentable : Assignment.Presentable best
      · have read := Assignment.ofReply_chosen best
        rw [if_neg presentable.2, if_neg presentable.1] at read
        exact .inl ⟨best, congrArg (Except.mapError mapRedisError) read, rfl⟩
      · obtain ⟨error, read⟩ := Assignment.ofReply_error presentable
        exact .inr ⟨_, congrArg (Except.mapError mapRedisError) read,
          .unread rfl changed fun legible => presentable (legible best candidate)⟩
  · obtain ⟨rfl, rfl⟩ := run
    refine .inr ⟨_, rfl, ?_⟩
    rcases failed with rfl | ⟨value, redis, effect, rfl⟩
    · exact .harmless rfl ⟨rfl, rfl, fun _ => rfl, rfl, rfl⟩ (Bool.false_ne_true ·.1) id
    · rcases exec_assign_cases unbound effect with ⟨none, -, rfl⟩ | ⟨best, candidate, -, rfl⟩
      · exact .harmless rfl ⟨rfl, rfl, fun _ => rfl, rfl, rfl⟩ (none ·.2) id
      · exact .harmful rfl (not_same_of_assigned unbound rfl) ⟨rfl, candidate.hasCapacity⟩

/-- Closing the new binding again gives back the slot it took. -/
theorem Released.restores {best : SfuInstance} {middle last : World} (sound : Sound world)
    (unbound : world.redis.bindings.lookup roomId = none)
    (store : middle.redis.bindings = (assigned state roomId best world).redis.bindings ∧
      middle.redis.scores = (assigned state roomId best world).redis.scores)
    (released : Released roomId best.instanceId middle last) :
    last.redis.bindings = world.redis.bindings ∧
      ∀ query, last.redis.score .roomLoad query = world.redis.score .roomLoad query := by
  constructor
  · rw [released.bindings, store.1]
    refine Finmap.ext_lookup fun query => ?_
    simp only [assigned, Redis.assign, lookup_erase_if, lookup_insert_if]
    split
    · rename_i same
      rw [same, unbound]
    · rfl
  · intro query
    have counted : (middle.redis.scores .roomLoad) =
        (world.redis.scores .roomLoad).insert best.instanceId
          (world.redis.score .roomLoad best.instanceId + 1) := by
      rw [store.2]
      exact Function.update_self SortedSet.roomLoad ((world.redis.scores .roomLoad).insert
        best.instanceId (world.redis.score .roomLoad best.instanceId + 1)) world.redis.scores
    have nonneg := sound.load best.instanceId
    rw [released.load, counted, Finmap.lookup_insert]
    split
    · rename_i same
      subst same
      simp only [decremented, Option.getD_some]
      split <;> omega
    · rename_i apart
      rw [Redis.score, counted, Finmap.lookup_insert_of_ne _ apart]
      rfl

/-- Opening a room succeeds, or settles what it has done before the fault. -/
theorem openRoom_runs (sessionId : SessionId) (readable : Prop) {best : SfuInstance}
    (sound : Sound world)
    (unbound : world.redis.bindings.lookup roomId = none)
    (free : (roomId, nickname) ∉ world.redis.members) {result : Except WsHandlerError Unit}
    (run : (openRoom state best.grpcAddr roomId nickname).run.Runs exec
      (assigned state roomId best world, none) result after) :
    (result = .ok () ∧ after = (connected best.grpcAddr roomId nickname
        (joined roomId nickname (assigned state roomId best world)), none)) ∨
      ∃ error, result = .error error ∧ Settled sessionId readable world after := by
  have bound : (assigned state roomId best world).redis.bindings.lookup roomId = some
      (Redis.newBinding state.config.signalingPublicHost
        (toString state.config.signalingPublicPort.toNat) state.config.publicNodeId best) :=
    Finmap.lookup_insert _
  have named : (Redis.newBinding state.config.signalingPublicHost
      (toString state.config.signalingPublicPort.toNat) state.config.publicNodeId best).get
        "sfu_instance_id" = some best.instanceId := by
    rw [Redis.get_newBinding]
    rfl
  have same {middle last : World} (released : Released roomId best.instanceId middle last)
      (store : middle.redis.bindings = (assigned state roomId best world).redis.bindings ∧
        middle.redis.scores = (assigned state roomId best world).redis.scores)
      (sessions : middle.redis.sessions = world.redis.sessions)
      (members : middle.redis.members = world.redis.members)
      (sfuPeers : middle.sfuPeers = world.sfuPeers) : SameRooms sessionId world last := by
    obtain ⟨bindings, load⟩ := released.restores sound unbound store
    refine ⟨bindings, released.members.trans members, load, ?_, released.sfuPeers.trans sfuPeers⟩
    rw [recordedRoom, released.sessions, sessions]
    rfl
  have undo {middle : World} {fault : Fault Op} {final : World × Option (Fault Op)}
      (closed : (undoBinding roomId).Runs exec (middle, some fault) () final)
      (store : middle.redis.bindings = (assigned state roomId best world).redis.bindings) :
      ∃ last, final = (last, some fault) ∧ Released roomId best.instanceId middle last := by
    rw [← store] at bound
    exact undoBinding_runs bound named closed
  obtain ⟨entered, _, first, run⟩ := runs_lift_bind.mp run
  rcases joinRoom_runs first with ⟨participants, rfl, -, rfl⟩ | ⟨error, rfl, failed⟩
  · obtain ⟨created, _, first, run⟩ := runs_lift_bind.mp run
    rcases ensurePeer_runs first with ⟨rfl, rfl⟩ | ⟨error, fault, rfl, failed⟩
    · obtain ⟨rfl, rfl⟩ := run
      exact .inl ⟨rfl, rfl⟩
    · obtain ⟨_, _, undone, run⟩ := runs_lift_bind.mp run
      obtain ⟨_, _, closed, rfl, rfl⟩ := runs_lift_bind.mp run
      refine .inr ⟨_, rfl, ?_⟩
      have erased : (insert (roomId, nickname) world.redis.members).erase (roomId, nickname) =
          world.redis.members := Finset.erase_insert free
      rcases failed with ⟨harmless, late, rfl⟩ | ⟨harmful, absent, rfl⟩
      · obtain rfl := undoJoin_runs undone
        obtain ⟨last, rfl, released⟩ := undo closed rfl
        exact .harmless released.nodes (same released ⟨rfl, rfl⟩ rfl erased rfl) (harmless _) late
      · obtain rfl := undoJoin_runs undone
        obtain ⟨last, rfl, released⟩ := undo closed rfl
        refine .harmful released.nodes (not_same_of_peer absent ?_) (harmful _)
        rw [released.sfuPeers]
        exact Finset.mem_insert_self _ _
  · obtain ⟨_, _, closed, rfl, rfl⟩ := runs_lift_bind.mp run
    refine .inr ⟨_, rfl, ?_⟩
    rcases failed with
      ⟨-, absent | member⟩ | ⟨fault, harmless, late, rfl⟩ | ⟨fault, harmful, -, rfl⟩
    · rw [bound] at absent
      cases absent
    · exact absurd member free
    · obtain ⟨last, rfl, released⟩ := undo closed rfl
      exact .harmless released.nodes (same released ⟨rfl, rfl⟩ rfl rfl rfl) (harmless _) late
    · obtain ⟨last, rfl, released⟩ := undo closed rfl
      refine .harmful released.nodes (not_same_of_member free ?_) (harmful _)
      rw [released.members]
      exact Finset.mem_insert_self _ _

/-- A create after its admission. -/
theorem createRest_runs {session : SessionState} {error : WsHandlerError} (sound : Sound world)
    (other : error ≠ .writeFailed)
    (run : (do
      let roomId ← issue .newUuid
      let assignment ← redis (assignRoomToLeastLoadedSfu roomId state.config.publicNodeId
        state.config.signalingPublicHost state.config.signalingPublicPort)
      openRoom state assignment.sfuGrpcAddr roomId session.nickname
      recordRoom state connection sessionId roomId
      sendMessage connection (.created roomId session.nickname)
      state.register roomId session.nickname ⟨connection, some assignment.sfuGrpcAddr⟩ :
        WsCall Unit).run.Runs exec (world, none) (.error error) after) :
    Settled sessionId (Legible world.redis (world.now / 1000 : ℕ)) world after := by
  obtain ⟨roomId, _, drawn, run⟩ := runs_lift_bind.mp run
  obtain ⟨_, ⟨⟨fresh, -⟩, rfl⟩, rfl⟩ := runs_certain (fun _ => id) drawn
  have unbound : world.redis.bindings.lookup roomId = none :=
    Finmap.lookup_eq_none.mpr fun bound => fresh (sound.bound roomId bound)
  have free : (roomId, session.nickname) ∉ world.redis.members :=
    fun member => fresh (sound.members _ member)
  have sound : Sound { world with issued := insert roomId world.issued } :=
    ⟨sound.load, fun query bound => Finset.mem_insert_of_mem (sound.bound query bound),
      fun member listed => Finset.mem_insert_of_mem (sound.members member listed)⟩
  refine Settled.congr (?_ : Settled sessionId (Legible world.redis (world.now / 1000 : ℕ))
    { world with issued := insert roomId world.issued } after) rfl rfl rfl
  obtain ⟨assignment, _, first, run⟩ := runs_except_bind.mp run
  rcases assign_runs sessionId first unbound with ⟨best, rfl, rfl⟩ | ⟨error, rfl, settled⟩
  · obtain ⟨opened, _, first, run⟩ := runs_except_bind.mp run
    rcases openRoom_runs sessionId (Legible world.redis (world.now / 1000 : ℕ)) sound unbound free
      first with ⟨rfl, rfl⟩ | ⟨error, rfl, settled⟩
    · obtain ⟨last, fault, rfl, harmful, nodes, members⟩ := record_runs certain_lift other run
      refine .harmful nodes (not_same_of_member free ?_) (harmful _)
      rw [members]
      exact Finset.mem_insert_self _ _
    · obtain ⟨-, rfl⟩ := run
      exact settled
  · obtain ⟨-, rfl⟩ := run
    exact settled

/-! ## All or nothing -/

/-- What an admitted session leaves is settled by the rest of the handler. -/
theorem Settled.unchanged_iff {session : SessionState} {request : Request} {readable : Prop}
    (known : knownSession connection sessionId world = some session)
    (settled : Settled sessionId readable (admitted state connection sessionId session world) after)
    (reads : readable ↔ Readable connection sessionId world request) :
    Unchanged sessionId world after.1 ↔
      Harmless state connection sessionId request world after.2 := by
  have nodes : after.1.nodes = world.nodes ↔
      (world.nodes state.node).sessions.upsert sessionId session =
        (world.nodes state.node).sessions := by
    rw [settled.nodes]
    refine Function.update_eq_self_iff.trans ?_
    exact ⟨congrArg Node.sessions, fun same => congrArg (Node.mk _) same⟩
  constructor
  · intro unchanged
    obtain ⟨undone, read⟩ := settled.rooms.mp ⟨unchanged.bindings, unchanged.members,
      unchanged.load, unchanged.recorded, unchanged.sfuPeers⟩
    refine ⟨fun other found _ => ?_, undone, fun none => reads.mp (read none)⟩
    rw [known] at found
    obtain rfl := Option.some.inj found
    exact nodes.mp unchanged.nodes
  · intro harmless
    have same := settled.rooms.mpr
      ⟨harmless.undone, fun none => reads.mpr (harmless.readable none)⟩
    exact ⟨⟨same.bindings, same.members, same.load, same.recorded, same.sfuPeers⟩,
      nodes.mpr (harmless.agrees session known settled.late)⟩

/-- Nothing has changed. -/
theorem Unchanged.refl (sessionId : SessionId) (world : World) : Unchanged sessionId world world :=
  ⟨⟨rfl, rfl, fun _ => rfl, rfl, rfl⟩, rfl⟩

/-- A session that is unknown, or has a room, does not get as far as the script. -/
theorem readable_of_barred (request : Request)
    (barred : ∀ session, knownSession connection sessionId world = some session →
      session.roomId ≠ none) : Readable connection sessionId world request := by
  cases request with
  | create =>
      intro ⟨session, known, outside⟩
      exact absurd outside (barred session known)
  | join => trivial

/-- Where the session is not admitted nothing changes. -/
theorem unchanged_of_refused {result : Except WsHandlerError SessionState} (request : Request)
    (run : (checkSession state connection sessionId).run.Runs exec (world, none) result after)
    {error : WsHandlerError} (refused : result = .error error) :
    Unchanged sessionId world after.1 ∧
      Harmless state connection sessionId request world after.2 := by
  subst refused
  rcases checkSession_runs run with
    ⟨session, -, returned, -⟩ | ⟨_, -, ⟨unknown, rfl⟩ | ⟨fault, early, rfl⟩⟩
  · cases returned
  · have absent : ∀ session, knownSession connection sessionId world ≠ some session := by
      rw [unknown]
      nofun
    exact ⟨.refl _ _, fun session known => absurd known (absent session), nofun,
      fun _ => readable_of_barred request fun session known => absurd known (absent session)⟩
  · refine ⟨.refl _ _, fun session _ late => absurd early (late fault rfl), ?_, nofun⟩
    intro other member
    obtain rfl := Option.some.inj member
    exact not_harmful_of_early early

/-- A session is let through, or nothing but its registration has changed. -/
theorem admission_runs {barred : ConnectionContext → Prop} [DecidablePred barred]
    (request : Request)
    (bars : ∀ session, barred ((admitted state connection sessionId session world).connections
      connection).context → Readable connection sessionId world request)
    {result : Except WsHandlerError SessionState}
    (run : (do
      let session ← checkSession state connection sessionId
      if session.roomId.isSome then throw .alreadyInRoom
      else do
        let context ← getContext connection
        if barred context then throw .unauthorized
        else return session : WsCall SessionState).run.Runs exec (world, none) result after) :
    (∃ session, knownSession connection sessionId world = some session ∧
      session.roomId = none ∧ result = .ok session ∧
      ¬ barred ((admitted state connection sessionId session world).connections
        connection).context ∧
      after = (admitted state connection sessionId session world, none)) ∨
    ∃ error, result = .error error ∧ (Unchanged sessionId world after.1 ↔
      Harmless state connection sessionId request world after.2) := by
  obtain ⟨checked, _, check, run⟩ := runs_except_bind.mp run
  rcases checked with error | session
  · have refused := unchanged_of_refused request check rfl
    obtain ⟨rfl, rfl⟩ := run
    exact .inr ⟨_, rfl, iff_of_true refused.1 refused.2⟩
  · rcases checkSession_runs check with ⟨_, known, same, rfl⟩ | ⟨_, refused, -⟩
    · obtain rfl := Except.ok.inj same
      have idle (reads : Readable connection sessionId world request) :=
        (@Settled.idle sessionId _ (admitted state connection sessionId session world)
          reads).unchanged_iff known Iff.rfl
      change (if session.roomId.isSome = true then _ else _ : WsCall SessionState).run.Runs
        _ _ _ _ at run
      split at run
      · rename_i inside
        obtain ⟨rfl, rfl⟩ := run
        refine .inr ⟨_, rfl, idle (readable_of_barred request fun other found => ?_)⟩
        obtain rfl := Option.some.inj (known.symm.trans found)
        exact Option.isSome_iff_ne_none.mp inside
      · rename_i outside
        obtain ⟨context, _, read, run⟩ := runs_lift_bind.mp run
        obtain ⟨rfl, rfl⟩ := runs_getContext read
        split at run
        · rename_i refused
          obtain ⟨rfl, rfl⟩ := run
          exact .inr ⟨_, rfl, idle (bars session refused)⟩
        · rename_i allowed
          obtain ⟨rfl, rfl⟩ := run
          exact .inl ⟨session, known, Option.not_isSome_iff_eq_none.mp outside, rfl, allowed, rfl⟩
    · cases refused

/-- Admitting a session keeps the world sound. -/
theorem Sound.admitted {session : SessionState} (sound : Sound world) :
    Sound (admitted state connection sessionId session world) :=
  ⟨sound.load, sound.bound, sound.members⟩

/-- What a connection may do does not change when its session is admitted. -/
theorem allowedIntent_admitted (session : SessionState) :
    ((admitted state connection sessionId session world).connections
        connection).context.allowedIntent =
      (world.connections connection).context.allowedIntent := by
  simp [admitted, World.setNode, World.setConnection]

/-- **A request that fails leaves no trace exactly when the failure is harmless**: the
session was refused or the node's registry agreed with the store; what failed comes
before the member and the peer are there, or is undone; and the request did not fail
for a reply of the assignment script that cannot be read. -/
theorem unchanged_iff_harmless (sound : Sound world) (request : Request) {error : WsHandlerError}
    (other : error ≠ .writeFailed)
    (run : (handler state connection sessionId request).run.Runs exec (world, none)
      (.error error) after) :
    Unchanged sessionId world after.1 ↔
      Harmless state connection sessionId request world after.2 := by
  cases request with
  | create =>
      obtain ⟨checked, _, first, run⟩ := runs_except_bind.mp run
      have bars (session : SessionState) (barred : ((admitted state connection sessionId session
          world).connections connection).context.allowedIntent ≠ some "create") :
          Readable connection sessionId world .create := by
        rw [allowedIntent_admitted] at barred
        exact fun _ allowed => absurd allowed barred
      rcases admission_runs .create bars first with
        ⟨session, known, outside, rfl, allowed, rfl⟩ | ⟨error, rfl, iff⟩
      · rw [allowedIntent_admitted, not_not] at allowed
        refine (createRest_runs sound.admitted other run).unchanged_iff known ?_
        exact ⟨fun legible _ _ => legible,
          fun readable => readable ⟨session, known, outside⟩ allowed⟩
      · obtain ⟨-, rfl⟩ := run
        exact iff
  | join roomId =>
      obtain ⟨checked, _, first, run⟩ := runs_except_bind.mp run
      rcases admission_runs (.join roomId) (fun _ _ => trivial) first with
        ⟨session, known, -, rfl, -, rfl⟩ | ⟨error, rfl, iff⟩
      · exact (joinRest_runs other run).unchanged_iff known Iff.rfl
      · obtain ⟨-, rfl⟩ := run
        exact iff

/-! ## A peer nobody deletes -/

instance (op : Op) (reply : op.Reply) : Decidable (Fails op reply) := by
  unfold Fails
  split <;> infer_instance

/-- What settles the outcome of a step, and whether it fails, with effect or without. -/
structure FaultHint where
  hint : Hint := {}
  fault : Option Bool := none

/-- The reply of a command that timed out. -/
def timedOut : (op : Op) → Option op.Reply
  | .redis _ => some (.error .timeout)
  | .createPeer .. => some (.error .timeout)
  | _ => none

/-- A reply that is a timeout is that of a lost call. -/
theorem fails_of_timedOut {op : Op} {reply : op.Reply} (out : timedOut op = some reply) :
    Fails op reply ∧ Lost op reply := by
  cases op with
  | redis | createPeer =>
      obtain rfl := Option.some.inj out
      exact ⟨trivial, trivial⟩
  | _ => cases out

/-- One successful outcome of a step. -/
def sampleSuccess (hint : Hint) (op : Op) (world : World) : Option (op.Reply × World) :=
  (World.sample hint op world).filter fun outcome => ¬ Fails op outcome.1

/-- What the sampler computes without a fault is a step. -/
theorem sampleSuccess_sound {hint : Hint} {op : Op} {last : World} {reply : op.Reply}
    (sampled : sampleSuccess hint op world = some (reply, last)) :
    succeeds op world reply last := by
  obtain ⟨found, works⟩ := Option.filter_eq_some_iff.mp sampled
  have works : ¬ Fails op reply := of_decide_eq_true works
  exact ⟨works, World.sample_sound found⟩

/-- One outcome of a step of which one may fail. -/
def sample : FaultHint → (op : Op) → World × Option (Fault Op) →
    Option (op.Reply × (World × Option (Fault Op)))
  | ⟨hint, none⟩, op, state =>
      (sampleSuccess hint op state.1).map fun outcome => (outcome.1, (outcome.2, state.2))
  | ⟨_, some false⟩, op, (world, none) =>
      (timedOut op).map fun reply => (reply, (world, some ⟨op, false⟩))
  | ⟨hint, some true⟩, op, (world, none) =>
      (timedOut op).bind fun reply =>
        (sampleSuccess hint op world).map fun outcome => (reply, (outcome.2, some ⟨op, true⟩))
  | _, _, _ => none

/-- What the sampler computes with a fault is a step. -/
theorem sample_sound {hint : FaultHint} {op : Op} {before last : World × Option (Fault Op)}
    {reply : op.Reply} (sampled : sample hint op before = some (reply, last)) :
    exec op before reply last := by
  obtain ⟨hint, fault⟩ := hint
  obtain ⟨world, failed⟩ := before
  match fault, failed with
  | none, failed =>
      obtain ⟨outcome, found, same⟩ := Option.map_eq_some_iff.mp sampled
      cases same
      exact .inl ⟨sampleSuccess_sound found, rfl⟩
  | some false, none =>
      obtain ⟨_, out, same⟩ := Option.map_eq_some_iff.mp sampled
      cases same
      exact .inr ⟨(fails_of_timedOut out).1, rfl, .inl rfl⟩
  | some true, none =>
      obtain ⟨_, out, sampled⟩ := Option.bind_eq_some_iff.mp sampled
      obtain ⟨outcome, found, same⟩ := Option.map_eq_some_iff.mp sampled
      cases same
      exact .inr ⟨(fails_of_timedOut out).1, rfl,
        .inr ⟨(fails_of_timedOut out).2, outcome.1, sampleSuccess_sound found, rfl⟩⟩
  | some false, some _ => cases sampled
  | some true, some _ => cases sampled

/-- A room that a session has leave to join. -/
def invited : World :=
  let world := (World.fresh.assignTo "room-1").setNode sampleNode.node
    { peers := ∅
      sessions := (SessionStore.mk ∅ ∅).upsert "session-1" ⟨"bob", none⟩ }
  { world with
    redis := { world.redis with
      sessions := Finmap.singleton "session-1" ⟨Hash.set none "nickname" "bob", none⟩ }
    issued := {"room-1"}
    connections := fun _ =>
      { capacity := 256
        context :=
          { sessionId := some "session-1", cachedSession := some ⟨"bob", none⟩
            allowedIntent := some "join", allowedRoomId := some "room-1" } } }

/-- The sample world is sound. -/
theorem sound_invited : Sound invited where
  load instanceId := by
    have counted : invited.redis.score .roomLoad instanceId =
        if instanceId = "sfu-1" then 1 else 0 := Redis.score_zadd _ _ _ _ _
    rw [counted]
    split <;> decide
  bound roomId bound := by
    obtain ⟨hash, found⟩ := Finmap.mem_iff.mp bound
    have own : roomId = "room-1" := by
      by_contra other
      rw [show invited.redis.bindings.lookup roomId = none from
        Finmap.lookup_insert_of_ne _ other] at found
      cases found
    rw [own]
    exact Finset.mem_singleton_self _
  members member listed := absurd listed (Finset.notMem_empty _)

/-- A step that succeeds. -/
def plain : FaultHint := { }

/-- The join up to the call of the SFU, which times out. -/
def timeout (committed : Bool) : List FaultHint :=
  List.replicate 10 plain ++
    [{ hint := { names := ["bob"] } }, { fault := some committed }, plain]

/-- The join of the session that has leave for it. -/
def joining : Call (Except WsHandlerError Unit) :=
  (handler sampleNode 0 "session-1" (.join "room-1")).run


/-- A computed run of the join that ends in this error and passes a test. -/
theorem joining_runs (hints : List FaultHint) (test : World × Option (Fault Op) → Bool)
    (passes : (joining.follow sample hints (invited, none)).any (fun outcome =>
      decide (outcome.1 = .error .sfuUnavailable) && test outcome.2) = true) :
    ∃ after, joining.Runs exec (invited, none) (.error .sfuUnavailable) after ∧
      test after = true := by
  cases followed : joining.follow sample hints (invited, none) with
  | none =>
      rw [followed] at passes
      cases passes
  | some outcome =>
      obtain ⟨result, after⟩ := outcome
      rw [followed] at passes
      obtain ⟨failed, passed⟩ := Bool.and_eq_true_iff.mp passes
      obtain rfl : result = .error .sfuUnavailable := of_decide_eq_true failed
      have run : joining.Runs exec (invited, none) (.error .sfuUnavailable) after := by
        refine runs_of_follow ?_ followed
        exact fun _ _ _ _ _ => sample_sound
      exact ⟨after, run, passed⟩

/-- The registry of the node agrees with the store. -/
theorem known_invited : ∀ session, knownSession 0 "session-1" invited = some session →
    (invited.nodes sampleNode.node).sessions.upsert "session-1" session =
      (invited.nodes sampleNode.node).sessions := by
  intro session known
  have own : knownSession 0 "session-1" invited = some ⟨"bob", none⟩ := by decide +kernel
  obtain rfl := Option.some.inj (known.symm.trans own)
  have same : ((invited.nodes sampleNode.node).sessions.upsert "session-1"
      ⟨"bob", none⟩).bySessionId =
        (invited.nodes sampleNode.node).sessions.bySessionId ∧
      ((invited.nodes sampleNode.node).sessions.upsert "session-1" ⟨"bob", none⟩).byRoomId =
        (invited.nodes sampleNode.node).sessions.byRoomId := by
    decide +kernel
  exact SessionStore.mk.injEq .. |>.mpr same

/-- The call of the SFU failed, and this is known of its effect. -/
def createFailed (committed : Bool) (after : World × Option (Fault Op)) : Bool :=
  match after.2 with
  | some ⟨.createPeer .., other⟩ => other == committed
  | _ => false

/-- A join is undone when the call to the SFU times out without effect. -/
theorem unchanged_iff_harmless_timeout : ∃ after : World × Option (Fault Op),
    joining.Runs exec (invited, none) (.error .sfuUnavailable) after ∧
      Unchanged "session-1" invited after.1 := by
  obtain ⟨⟨last, failed⟩, run, passed⟩ :=
    joining_runs (timeout false) (createFailed false) (by decide +kernel)
  have harmless : Harmless sampleNode 0 "session-1" (.join "room-1") invited failed := by
    refine ⟨fun session known _ => known_invited session known, ?_, fun _ => trivial⟩
    intro fault member
    obtain rfl : failed = some fault := member
    unfold createFailed at passed
    split at passed
    · rename_i same
      cases same
      exact fun harmful => absurd (harmful.symm.trans (eq_of_beq passed)) nofun
    · cases passed
  exact ⟨(last, failed), run, (unchanged_iff_harmless sound_invited (.join "room-1")
    (by decide) run).mpr harmless⟩

/-- **A call to the SFU times out after it created the peer**: the join fails and the
SFU keeps the peer. -/
theorem peer_left : Sound invited ∧ ∃ after : World × Option (Fault Op),
    joining.Runs exec (invited, none) (.error .sfuUnavailable) after ∧
      ¬ Unchanged "session-1" invited after.1 := by
  obtain ⟨after, run, passed⟩ := joining_runs (timeout true)
    (fun after => decide ((sampleSfu.grpcAddr, "room-1", "bob") ∈ after.1.sfuPeers))
    (by decide +kernel)
  refine ⟨sound_invited, after, run, fun unchanged => ?_⟩
  have held := of_decide_eq_true passed
  rw [unchanged.sfuPeers] at held
  exact absurd held (by decide)

end Callifornia.Atomicity
