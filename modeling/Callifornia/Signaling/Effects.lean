import Callifornia.Roster
import Callifornia.Signaling.Footprint

/-! # What the parts of a handler do to the roster

Each part runs alone; what it returns and the roster it leaves are stated together.
-/

namespace Callifornia.Signaling

open Concurrency Concurrency.Program FiniteMap Store

/-- The run returns this value and leaves this roster. -/
def Leaves {α : Type} (value : α) (roster : Roster) (result : α) (after : World) : Prop :=
  result = value ∧ after.roster = roster

/-- Which channels are sure to accept a message, given those that are received from. -/
abbrev Accepting := (ConnectionId → Bool) → ConnectionId → Prop

/-- The peer is registered and its channel may refuse a message. -/
def MayRefuse (accepting : Accepting) (node : NodeId) (roomId : RoomId) (roster : Roster)
    (nickname : Nickname) : Prop :=
  ∃ entry, (roster.peers node).lookup (roomId, nickname) = some entry ∧
    ¬ accepting roster.listening entry.sender

/-- Detaching somebody makes no other channel refuse. -/
theorem MayRefuse.of_detach {accepting : Accepting} {node : NodeId} {roomId other : RoomId}
    {roster : Roster} {nickname victim : Nickname}
    (refuses : MayRefuse accepting node roomId (roster.detach node other nickname) victim) :
    MayRefuse accepting node roomId roster victim := by
  obtain ⟨entry, found, refuses⟩ := refuses
  rw [Roster.keeps_detach.listening] at refuses
  rw [Roster.peers_detach, if_pos rfl] at found
  by_cases same : (roomId, victim) = (other, nickname)
  · rw [same, Finmap.lookup_erase] at found
    cases found
  · exact ⟨entry, (Finmap.lookup_erase_ne same).symm.trans found, refuses⟩

/-- The channel of each of these peers may refuse. -/
def Refusing (accepting : Accepting) (node : NodeId) (roomId : RoomId) (roster : Roster)
    (nicknames : List Nickname) : Prop :=
  ∀ nickname ∈ nicknames, MayRefuse accepting node roomId roster nickname

/-- Nor does the check of a session. -/
theorem Refusing.of_check {accepting : Accepting} {node id : NodeId} {roomId : RoomId}
    {roster : Roster} {nicknames : List Nickname} {connection : ConnectionId}
    {sessionId : SessionId} {session : SessionState}
    (refusing : Refusing accepting node roomId (roster.check id connection sessionId session)
      nicknames) :
    Refusing accepting node roomId roster nicknames := by
  intro nickname member
  obtain ⟨entry, found, refuses⟩ := refusing nickname member
  rw [Roster.check, Roster.peers_withSessions] at found
  exact ⟨entry, found, refuses⟩

/-- A step of the world whose reply is one of those assumed. -/
def Replying (assumed : (op : Op) → World → op.Reply → Prop) (op : Op) (before : World)
    (reply : op.Reply) (after : World) : Prop :=
  World.exec op before reply after ∧ assumed op before reply

/-- Under an assumption on the replies a step is a step of the world still. -/
theorem exec_of_replying {assumed : (op : Op) → World → op.Reply → Prop} (op : Op)
    (before : World) (reply : op.Reply) (after : World)
    (step : Replying assumed op before reply after) : World.exec op before reply after :=
  step.1

section Steps

variable {exec : (op : Op) → World → op.Reply → World → Prop} {α β ε : Type} {world : World}

/-! ## Going on after a part whose outcome is known -/

/-- The rest of a program goes on from the roster its first part leaves. -/
theorem leaves_bind {program : Call α} {rest : α → Call β} {value : α} {roster : Roster}
    {post : β → World → Prop} (first : program.Ensures exec world (Leaves value roster))
    (second : ∀ middle, middle.roster = roster → (rest value).Ensures exec middle post) :
    (program >>= rest).Ensures exec world post := by
  apply first.bind
  rintro _ middle ⟨rfl, same⟩
  exact second middle same

/-- After a success the rest goes on from the roster the first part leaves. -/
theorem leaves_except_bind {program : ExceptT ε Call α} {rest : α → ExceptT ε Call β} {value : α}
    {roster : Roster} {post : Except ε β → World → Prop}
    (first : program.run.Ensures exec world (Leaves (.ok value) roster))
    (second : ∀ middle, middle.roster = roster → (rest value).run.Ensures exec middle post) :
    (program >>= rest).run.Ensures exec world post := by
  refine first.except_bind (fun result middle leaves => ?_) fun error middle leaves => ?_
  · obtain ⟨same, left⟩ := leaves
    cases same
    exact second middle left
  · cases leaves.1

/-- After a part that cannot fail the rest goes on from the roster it leaves. -/
theorem leaves_lift_bind {program : Call α} {rest : α → ExceptT ε Call β} {value : α}
    {roster : Roster} {post : Except ε β → World → Prop}
    (first : program.Ensures exec world (Leaves value roster))
    (second : ∀ middle, middle.roster = roster → (rest value).run.Ensures exec middle post) :
    ((liftM program : ExceptT ε Call α) >>= rest).run.Ensures exec world post := by
  apply first.lift_bind
  rintro _ middle ⟨rfl, same⟩
  exact second middle same

/-- A renamed error changes nothing about a success. -/
theorem leaves_adapt {ε' : Type} {rename : ε → ε'} {program : ExceptT ε Call α} {value : α}
    {roster : Roster} (first : program.run.Ensures exec world (Leaves (.ok value) roster)) :
    (ExceptT.adapt rename program).run.Ensures exec world (Leaves (.ok value) roster) := by
  refine ensures_adapt.mpr (first.mono ?_)
  rintro _ after ⟨rfl, same⟩
  exact ⟨rfl, same⟩

variable (sound : ∀ op before reply after, exec op before reply after →
  World.exec op before reply after)

include sound

/-- One step ensures what every effect of it ensures. -/
theorem ensures_issue {op : Op} {post : op.Reply → World → Prop}
    (effect : ∀ reply after, World.exec op world reply after → post reply after) :
    (issue op).Ensures exec world post := by
  refine ensures_call.mpr fun reply after step => ensures_ret.mpr ?_
  exact effect reply after (sound op world reply after step)

/-- One command ensures what every effect of it on the store ensures. -/
theorem ensures_command {onFailure : RedisFailure → ε} {command : Command}
    {post : Except ε command.Reply → World → Prop}
    (effect : ∀ value redis, world.redis.exec world.now command value redis →
      post (.ok value) { world with redis }) :
    (redisCommand onFailure command).run.Ensures exec world post := by
  refine ensures_call.mpr fun reply after step => ensures_ret.mpr ?_
  obtain ⟨value, redis, taken, rfl, rfl⟩ := sound _ world reply after step
  exact effect value redis taken

/-- A command whose reply and effect the store determines. -/
theorem command_leaves {onFailure : RedisFailure → ε} {command : Command} {value : command.Reply}
    {redis : Redis}
    (effect : ∀ reply after, world.redis.exec world.now command reply after →
      reply = value ∧ after = redis) :
    (redisCommand onFailure command).run.Ensures exec world
      (Leaves (.ok value) { world with redis }.roster) := by
  refine ensures_command sound fun reply after taken => ?_
  obtain ⟨rfl, rfl⟩ := effect reply after taken
  exact ⟨rfl, rfl⟩

/-- A program of silent steps leaves the roster as it is. -/
theorem ensures_silent {program : Call α} (only : program.Only World.Silent) :
    program.Ensures exec world fun _ after => after.roster = world.roster := by
  refine only.ensures (fun op before reply after silent same step => ?_) rfl
  exact (World.exec_silent (sound op before reply after step) silent).trans same

/-! ## Reads -/

/-- A hash is read, and the roster stays. -/
theorem hgetall_leaves {onFailure : RedisFailure → ε} (key : HashKey) :
    (redisCommand onFailure (.hgetall key)).run.Ensures exec world
      (Leaves (.ok (((world.redis.hash key).map Hash.fields).getD ∅)) world.roster) := by
  apply command_leaves sound
  intro reply after taken
  exact taken

/-- Redis answers when the program runs alone. -/
theorem isRedisAvailable_leaves :
    State.isRedisAvailable.Ensures exec world (Leaves true world.roster) := by
  refine ensures_call.mpr fun reply after step => ?_
  obtain ⟨value, redis, taken, rfl, rfl⟩ := sound _ world reply after step
  obtain rfl : redis = world.redis := taken
  exact ensures_ret.mpr ⟨rfl, rfl⟩

/-- So the check of Redis passes. -/
theorem requireRedis_leaves :
    requireRedis.run.Ensures exec world (Leaves (.ok ()) world.roster) := by
  apply leaves_lift_bind (isRedisAvailable_leaves sound)
  intro middle same
  exact ensures_except_pure.mpr ⟨rfl, same⟩

/-- The session that is read is the one in the roster. -/
theorem sessionGet_leaves (sessionId : SessionId) :
    (sessionGet sessionId).run.Ensures exec world
      (Leaves (.ok (world.roster.session sessionId)) world.roster) := by
  apply leaves_except_bind (hgetall_leaves sound (.session sessionId))
  intro middle same
  exact ensures_except_pure.mpr ⟨rfl, same⟩

/-- The context holds the session of the connection. -/
theorem getContext_ensures (connection : ConnectionId) :
    (getContext connection).Ensures exec world fun context after =>
      context.sessionId = world.roster.attached connection ∧ after.roster = world.roster := by
  apply ensures_issue sound
  intro context after step
  obtain ⟨rfl, rfl⟩ := step
  exact ⟨rfl, rfl⟩

/-- The route that is read is the one in the roster. -/
theorem getRoomRoute_leaves (roomId : RoomId) :
    (getRoomRoute roomId).run.Ensures exec world
      (Leaves (world.roster.route roomId) world.roster) := by
  apply leaves_except_bind (hgetall_leaves sound (.binding roomId))
  intro middle same
  exact ensures_ret.mpr ⟨rfl, same⟩

/-! ## Writes -/

/-- The connection keeps its session. -/
theorem setContext_keeps {connection : ConnectionId}
    {change : ConnectionContext → ConnectionContext}
    (keeps : ∀ context, (change context).sessionId = context.sessionId) :
    (setContext connection change).Ensures exec world (Leaves () world.roster) := by
  apply ensures_issue sound
  intro _ after step
  obtain rfl : after = _ := step
  exact ⟨rfl, World.roster_setConnection_same rfl (keeps _)⟩

/-- The connection is bound to the session in its context, or to none. -/
theorem setContext_leaves {connection : ConnectionId}
    {change : ConnectionContext → ConnectionContext} {sessionId : Option SessionId}
    (sets : ∀ context, (change context).sessionId = sessionId) :
    (setContext connection change).Ensures exec world
      (Leaves () (world.roster.attach connection sessionId)) := by
  apply ensures_issue sound
  intro _ after step
  obtain rfl : after = _ := step
  refine ⟨rfl, (World.roster_setConnection ?_).trans ?_⟩
  · rfl
  · exact congrArg (world.roster.attach connection) (sets _)

/-- A peer is registered at the node. -/
theorem register_leaves (state : State) (roomId : RoomId) (nickname : Nickname)
    (entry : PeerEntry) :
    (state.register roomId nickname entry).Ensures exec world
      (Leaves () (world.roster.register state.node roomId nickname entry)) := by
  apply ensures_issue sound
  intro _ after step
  obtain ⟨_, rfl, rfl⟩ := step
  exact ⟨rfl, rfl⟩

/-- A peer is taken out of the node's registry. -/
theorem unregister_leaves (state : State) (roomId : RoomId) (nickname : Nickname) :
    (state.unregister roomId nickname).Ensures exec world
      (Leaves () (world.roster.withPeers state.node (·.erase (roomId, nickname)))) := by
  apply ensures_issue sound
  intro _ after step
  obtain ⟨_, rfl, rfl⟩ := step
  exact ⟨rfl, rfl⟩

/-- A session is put into the node's table. -/
theorem upsertSession_leaves (state : State) (sessionId : SessionId) (session : SessionState) :
    (state.upsertSession sessionId session).Ensures exec world
      (Leaves () (world.roster.withSessions state.node (·.upsert sessionId session))) := by
  apply ensures_issue sound
  intro _ after step
  obtain ⟨_, rfl, rfl⟩ := step
  exact ⟨rfl, rfl⟩

/-- A session is taken out of the node's table. -/
theorem removeSession_leaves (state : State) (sessionId : SessionId) :
    (state.removeSession sessionId).Ensures exec world
      (Leaves () (world.roster.withSessions state.node (·.remove sessionId))) := by
  apply ensures_issue sound
  intro _ after step
  obtain ⟨_, rfl, rfl⟩ := step
  exact ⟨rfl, rfl⟩

/-- The room of a session is set in the node's table. -/
theorem setSessionRoom_leaves (state : State) (sessionId : SessionId) (roomId : Option RoomId) :
    (state.setSessionRoom sessionId roomId).Ensures exec world
      (Leaves () (world.roster.withSessions state.node (·.setRoom sessionId roomId))) := by
  apply ensures_issue sound
  intro _ after step
  obtain ⟨_, rfl, rfl⟩ := step
  exact ⟨rfl, rfl⟩

/-- A session is looked up in the node's table. -/
theorem getSession_leaves (state : State) (sessionId : SessionId) :
    (state.getSession sessionId).Ensures exec world
      (Leaves (world.roster.known state.node sessionId) world.roster) := by
  apply ensures_issue sound
  intro found after step
  obtain ⟨_, ⟨rfl, rfl⟩, rfl⟩ := step
  refine ⟨rfl, ?_⟩
  simp only [World.roster, World.setNode, Function.update_eq_self]

/-- A field of a session is written. -/
theorem hset_leaves {onFailure : RedisFailure → ε} (sessionId : SessionId) (field value : String) :
    (redisCommand onFailure (.hset (.session sessionId) field value)).run.Ensures exec world
      (Leaves (.ok ()) (world.roster.hset sessionId field value)) := by
  apply ensures_command sound
  intro _ redis taken
  obtain rfl : redis = _ := taken
  exact ⟨rfl, World.roster_hset⟩

/-! ## Closing a room and taking a peer out -/

/-- The release of a slot lowers one load. -/
theorem decrementSfuRoomLoad_ensures (instanceId : InstanceId) :
    (decrementSfuRoomLoad instanceId).run.Ensures exec world fun _ after =>
      after.roster = { world.roster with
        loads := world.roster.loads.insert instanceId
          (decremented (world.roster.loads.lookup instanceId)) } := by
  have scored : (redisCommand RedisRoomError.ofFailure (.zscore .roomLoad instanceId)).run.Ensures
      exec world (Leaves (.ok (world.roster.loads.lookup instanceId)) world.roster) := by
    apply command_leaves sound
    intro reply after taken
    exact taken
  apply leaves_except_bind scored
  intro middle same
  have counted : (redisCommand RedisRoomError.ofFailure (.zadd .roomLoad instanceId
      (decremented (world.roster.loads.lookup instanceId)))).run.Ensures exec middle
      (Leaves (.ok ()) { world.roster with
        loads := world.roster.loads.insert instanceId
          (decremented (world.roster.loads.lookup instanceId)) }) := by
    apply ensures_command sound
    intro _ redis taken
    obtain rfl : redis = _ := taken
    refine ⟨rfl, ?_⟩
    rw [World.roster_zadd, same]
  apply leaves_except_bind counted
  intro last same
  rw [← same]
  apply ensures_silent sound
  split
  · exact ⟨trivial, fun now => updateSfuIdleSince_only trivial fun _ => trivial⟩
  · trivial

/-- A binding is closed with its slot, if it is there. -/
theorem closeRoomBinding_ensures (roomId : RoomId) :
    (closeRoomBinding roomId).run.Ensures exec world fun _ after =>
      after.roster = world.roster.close roomId := by
  have named : (redisCommand RedisRoomError.ofFailure
      (.hget (.binding roomId) "sfu_instance_id")).run.Ensures exec world
      (Leaves (.ok ((world.roster.bindings.lookup roomId).bind (·.get "sfu_instance_id")))
        world.roster) := by
    apply command_leaves sound
    intro reply after taken
    exact taken
  apply leaves_except_bind named
  intro middle same
  have deleted : (redisCommand RedisRoomError.ofFailure (.del (.binding roomId))).run.Ensures exec
      middle (Leaves (.ok (if world.roster.Bound roomId then 1 else 0))
        { world.roster with bindings := world.roster.bindings.erase roomId }) := by
    apply ensures_command sound
    intro reply redis taken
    obtain ⟨rfl, rfl⟩ := taken
    rw [← same]
    exact ⟨rfl, rfl⟩
  apply leaves_except_bind deleted
  intro last same'
  cases found : world.roster.bindings.lookup roomId with
  | none =>
      simp only [Option.bind_none, ite_self]
      apply ensures_except_pure.mpr
      simp only [same', Roster.close, found, Option.bind_none]
  | some hash =>
      have bound : world.roster.Bound roomId := by
        simp only [Roster.Bound, found, Option.isSome_some]
      simp only [if_pos bound, Option.bind_some, one_ne_zero, if_false]
      cases named : hash.get "sfu_instance_id" with
      | none =>
          apply ensures_except_pure.mpr
          simp only [same', Roster.close, found, Option.bind_some, named]
      | some instanceId =>
          refine (decrementSfuRoomLoad_ensures sound instanceId).except_bind ?_ ?_
          · intro _ after left
            apply ensures_except_pure.mpr
            simp only [left, same', Roster.close, found, Option.bind_some, named]
          · intro _ after left
            simp only [left, same', Roster.close, found, Option.bind_some, named]

/-- A member is taken out; the count tells whether it was there. -/
theorem srem_leaves {onFailure : RedisFailure → ε} (roomId : RoomId) (nickname : Nickname) :
    (redisCommand onFailure (.srem roomId nickname)).run.Ensures exec world
      (Leaves (.ok (if (roomId, nickname) ∈ world.roster.members then 1 else 0))
        { world.roster with members := world.roster.members.erase (roomId, nickname) }) := by
  apply ensures_command sound
  intro reply redis taken
  obtain ⟨rfl, rfl⟩ := taken
  exact ⟨rfl, rfl⟩

/-- The room is bound exactly if its binding exists. -/
theorem exists_leaves {onFailure : RedisFailure → ε} (roomId : RoomId) :
    (redisCommand onFailure (.exists (.binding roomId))).run.Ensures exec world
      (Leaves (.ok (decide (world.roster.Bound roomId))) world.roster) := by
  apply ensures_command sound
  intro reply redis taken
  obtain ⟨rfl, rfl⟩ := taken
  exact ⟨congrArg Except.ok (Bool.decide_coe _).symm, rfl⟩

/-- The room is empty after its last member has been removed. -/
theorem leaveRoom_ensures (roomId : RoomId) (nickname : Nickname) :
    (leaveRoom roomId nickname).run.Ensures exec world fun result after =>
      after.roster = world.roster.removeMember roomId nickname ∧
        ((result.toOption.map LeaveRoomResult.roomEmpty).getD false =
          decide ((world.roster.Bound roomId ∧ (roomId, nickname) ∈ world.roster.members) ∧
            ¬ after.roster.Occupied roomId)) := by
  apply leaves_except_bind (exists_leaves sound roomId)
  intro middle same
  by_cases bound : world.roster.Bound roomId
  · simp only [bound, decide_true, Bool.not_true, Bool.false_eq_true, if_false, true_and]
    apply leaves_except_bind (srem_leaves sound roomId nickname)
    rw [same]
    intro removed same
    by_cases member : (roomId, nickname) ∈ world.roster.members
    · simp only [member, if_true, one_ne_zero, if_false, true_and]
      have counted : (redisCommand RedisRoomError.ofFailure (.scard roomId)).run.Ensures exec
          removed (Leaves (.ok (removed.redis.roomMembers roomId).card) removed.roster) := by
        apply command_leaves sound
        intro reply after taken
        exact taken
      apply leaves_except_bind counted
      intro counted same'
      have empty_iff : (removed.redis.roomMembers roomId).card = 0 ↔
          ¬ removed.roster.Occupied roomId := by
        rw [Finset.card_eq_zero, ← Finset.not_nonempty_iff_eq_empty]
        simp only [Finset.Nonempty, Redis.mem_roomMembers]
        exact Iff.rfl
      by_cases occupied : removed.roster.Occupied roomId
      · rw [if_neg fun none => empty_iff.mp none occupied]
        apply ensures_except_pure.mpr
        simp only [same', same, Roster.removeMember, if_pos bound, true_and]
        simp only [← same, occupied, not_true, decide_false]
        rfl
      · rw [if_pos (empty_iff.mpr occupied)]
        have cleared : (redisCommand RedisRoomError.ofFailure (.delMembers roomId)).run.Ensures exec
            counted (Leaves (.ok (if (counted.redis.roomMembers roomId).Nonempty then 1 else 0))
              removed.roster) := by
          apply ensures_command sound
          intro reply redis taken
          obtain ⟨rfl, rfl⟩ := taken
          refine ⟨rfl, ?_⟩
          have unchanged : counted.redis.members.filter (·.1 ≠ roomId) = counted.redis.members := by
            apply Finset.filter_true_of_mem
            intro place inside elsewhere
            apply occupied
            rw [← same']
            exact ⟨place.2, elsewhere ▸ inside⟩
          rw [← same']
          simp only [World.roster, unchanged, Redis.hash]
        apply leaves_except_bind cleared
        intro after left
        apply ensures_except_pure.mpr
        simp only [left, occupied, not_false_eq_true, decide_true]
        simp only [same, Roster.removeMember, if_pos bound, true_and]
        rfl
    · simp only [member, if_false, if_true]
      apply ensures_throw.mpr
      simp only [same, Roster.removeMember, if_pos bound, false_and, decide_false, true_and]
      rfl
  · simp only [bound, decide_false, Bool.not_false, if_true]
    apply ensures_throw.mpr
    simp only [same, Roster.removeMember, if_neg bound, false_and, decide_false, true_and]
    rfl

/-- A member of a bound room is taken out; the answer tells whether the room has become empty.
-/
theorem detachMember_ensures (roomId : RoomId) (nickname : Nickname) :
    (State.detachMember roomId nickname).Ensures exec world fun empty after =>
      after.roster = world.roster.removeMember roomId nickname ∧
        empty = decide ((world.roster.Bound roomId ∧ (roomId, nickname) ∈ world.roster.members) ∧
          ¬ after.roster.Occupied roomId) := by
  apply leaves_bind (isRedisAvailable_leaves sound)
  intro middle same
  apply (leaveRoom_ensures sound roomId nickname).bind
  intro result after left
  rw [← same]
  exact ensures_ret.mpr left

/-- The route of a room is read, if it is there. -/
theorem routeBeforeDetach_leaves (roomId : RoomId) :
    (State.routeBeforeDetach roomId).Ensures exec world
      (Leaves (world.roster.route roomId).toOption world.roster) := by
  apply leaves_bind (isRedisAvailable_leaves sound)
  intro middle same
  apply leaves_bind (getRoomRoute_leaves sound roomId)
  intro after left
  rw [same] at left ⊢
  exact ensures_ret.mpr ⟨rfl, left⟩

/-- A peer is taken off the SFU, if its address is known. -/
theorem detachFromSfu_ensures (roomId : RoomId) (nickname : Nickname) (reason : String)
    (sfuAddr : Option Address) :
    (State.detachFromSfu roomId nickname reason sfuAddr).Ensures exec world fun _ after =>
      after.roster = match sfuAddr with
        | none => world.roster
        | some sfuAddr =>
            { world.roster with
              sfuPeers := world.roster.sfuPeers.erase (sfuAddr, roomId, nickname) } := by
  cases sfuAddr with
  | none => exact ensures_ret.mpr rfl
  | some sfuAddr =>
      have deleted : (issue (.deletePeer sfuAddr roomId nickname reason)).Ensures exec world
          fun _ after => after.roster = { world.roster with
            sfuPeers := world.roster.sfuPeers.erase (sfuAddr, roomId, nickname) } := by
        apply ensures_issue sound
        intro reply after step
        obtain ⟨-, rfl⟩ := step
        rfl
      apply ensures_bind.mpr
      apply deleted.bind
      intro _ after left
      exact ensures_ret.mpr (ensures_ret.mpr left)

/-- A room that has become empty is closed. -/
theorem closeIfEmpty_ensures (roomId : RoomId) (empty : Bool) :
    (State.closeIfEmpty roomId empty).Ensures exec world fun _ after =>
      after.roster = if empty then world.roster.close roomId else world.roster := by
  unfold State.closeIfEmpty
  split
  · apply (closeRoomBinding_ensures sound roomId).bind
    intro _ after left
    exact ensures_ret.mpr left
  · exact ensures_ret.mpr rfl

/-- A detach takes the peer out of its room everywhere. -/
theorem detachPeer_ensures (state : State) (roomId : RoomId) (nickname : Nickname)
    (reason : String) :
    (state.detachPeer roomId nickname reason).Ensures exec world fun _ after =>
      after.roster = world.roster.detach state.node roomId nickname := by
  apply leaves_bind (routeBeforeDetach_leaves sound roomId)
  intro routed same
  apply leaves_bind (unregister_leaves sound state roomId nickname)
  rw [same]
  intro unregistered same
  apply (detachMember_ensures sound roomId nickname).bind
  intro empty removed left
  rw [same] at left
  obtain ⟨left, rfl⟩ := left
  apply (detachFromSfu_ensures sound roomId nickname reason _).bind
  intro _ gone same
  apply (closeIfEmpty_ensures sound roomId _).mono
  intro _ after closed
  rw [closed, Roster.detach, Roster.closeIfLeft]
  have gone_eq : gone.roster = removed.roster.removeSfuPeer roomId nickname := by
    rw [same, Roster.removeSfuPeer, left, Roster.sfuAddr_congr Roster.bindings_removeMember]
    rfl
  have occupied_iff : gone.roster.Occupied roomId ↔ removed.roster.Occupied roomId := by
    simp only [Roster.Occupied, gone_eq, Roster.members_removeSfuPeer]
  rw [← left, ← gone_eq]
  simp only [decide_eq_true_eq, occupied_iff]
  rfl

/-! ## Announcements -/

variable {accepting : Accepting}
  (accepts : ∀ sender message before reply after,
    exec (.trySend sender message) before reply after →
      accepting before.roster.listening sender → reply = true)

include accepts

/-- Those whose channel refused are left over. -/
theorem sendToEach_ensures (payload : ServerMessage) (targets : List (Nickname × ConnectionId)) :
    (State.sendToEach payload targets).Ensures exec world fun stale after =>
      after.roster = world.roster ∧ ∀ nickname ∈ stale, ∃ sender, (nickname, sender) ∈ targets ∧
        ¬ accepting world.roster.listening sender := by
  induction targets generalizing world with
  | nil => exact ensures_ret.mpr ⟨rfl, nofun⟩
  | cons target targets ih =>
      apply ensures_call.mpr
      intro sent middle step
      have same := World.exec_silent (sound _ _ _ _ step) trivial
      apply ih.bind
      rw [same]
      rintro stale after ⟨left, refused⟩
      have rest : ∀ nickname ∈ stale, ∃ sender, (nickname, sender) ∈ target :: targets ∧
          ¬ accepting world.roster.listening sender := by
        intro nickname member
        obtain ⟨sender, listed, refuses⟩ := refused nickname member
        exact ⟨sender, List.mem_cons_of_mem _ listed, refuses⟩
      apply ensures_ret.mpr
      cases sent with
      | true => exact ⟨left, rest⟩
      | false =>
          have refuses : ¬ accepting world.roster.listening target.2 := fun holds =>
            absurd (accepts _ _ _ _ _ step holds) Bool.false_ne_true
          exact ⟨left, List.forall_mem_cons.mpr ⟨⟨target.2, List.mem_cons_self, refuses⟩, rest⟩⟩

/-- A broadcast only finds whose channel refuses. -/
theorem broadcastToRoom_ensures (state : State) (roomId : RoomId)
    (exceptNickname : Option Nickname) (payload : ServerMessage) :
    (state.broadcastToRoom roomId exceptNickname payload).Ensures exec world fun stale after =>
      after.roster = world.roster ∧ Refusing accepting state.node roomId world.roster stale := by
  apply ensures_call.mpr
  intro targets middle step
  have same := World.exec_silent (sound _ _ _ _ step) trivial
  obtain ⟨_, ⟨⟨-, listed⟩, rfl⟩, -⟩ := sound _ _ _ _ step
  apply (sendToEach_ensures sound accepts payload targets).mono
  rw [same]
  rintro stale after ⟨left, refused⟩
  refine ⟨left, fun nickname member => ?_⟩
  obtain ⟨sender, target, refuses⟩ := refused nickname member
  obtain ⟨-, entry, found, rfl⟩ := (listed nickname sender).mp target
  exact ⟨entry, found, refuses⟩

/-- Those who are detached were in the room at the start, and their channel refused. -/
theorem detachStalePeers_ensures (state : State) (roomId : RoomId) (reason : String) (bound : ℕ)
    {start : Roster} (stale : List Nickname)
    (earlier : ∀ nickname, MayRefuse accepting state.node roomId world.roster nickname →
      MayRefuse accepting state.node roomId start nickname)
    (refusing : Refusing accepting state.node roomId start stale) :
    (detachStalePeers state roomId reason bound stale).Ensures exec world fun _ after =>
      ∃ nicknames, Refusing accepting state.node roomId start nicknames ∧
        after.roster = world.roster.detachAll state.node roomId nicknames := by
  induction bound generalizing stale world with
  | zero =>
      unfold detachStalePeers
      cases stale.getLast? with
      | none => exact ensures_ret.mpr ⟨[], nofun, rfl⟩
      | some nickname =>
          apply ensures_call.mpr
          intro reply
          exact reply.elim
  | succ bound ih =>
      unfold detachStalePeers
      cases last : stale.getLast? with
      | none => exact ensures_ret.mpr ⟨[], nofun, rfl⟩
      | some nickname =>
          have refuses := refusing nickname (List.mem_of_getLast? last)
          apply (broadcastToRoom_ensures sound accepts state roomId _ _).bind
          rintro moreStale sent ⟨same, more⟩
          apply (detachPeer_ensures sound state roomId nickname reason).bind
          intro _ detached left
          have remaining : Refusing accepting state.node roomId start
              (stale.dropLast ++ moreStale) := by
            intro other member
            rcases List.mem_append.mp member with before | now
            · exact refusing other (List.mem_of_mem_dropLast before)
            · exact earlier other (more other now)
          rw [same] at left
          apply (ih (stale.dropLast ++ moreStale) ?_ remaining).mono
          · rintro _ after ⟨nicknames, all, rest⟩
            rw [left] at rest
            exact ⟨nickname :: nicknames, List.forall_mem_cons.mpr ⟨refuses, all⟩, rest⟩
          · intro other later
            rw [left] at later
            exact earlier other later.of_detach

/-- An announcement takes those out of the room whose channel refuses it. -/
theorem announce_ensures (state : State) (roomId : RoomId) (nickname : Nickname)
    (message : ServerMessage) :
    (announce state roomId nickname message).Ensures exec world fun _ after =>
      ∃ victims, Refusing accepting state.node roomId world.roster victims ∧
        after.roster = world.roster.detachAll state.node roomId victims := by
  apply (broadcastToRoom_ensures sound accepts state roomId _ _).bind
  rintro stale sent ⟨same, refusing⟩
  rw [← same] at refusing ⊢
  exact detachStalePeers_ensures sound accepts state roomId _ _ stale (fun _ => id) refusing

end Steps

end Callifornia.Signaling
