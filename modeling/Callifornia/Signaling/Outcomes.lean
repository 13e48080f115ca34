import Callifornia.Signaling.Effects

/-! # What the handlers do to the roster

A handler runs alone. Where no channel refuses a message its announcements take nobody
out of a room, and where the SFU records are regular an assignment always succeeds or
leaves nothing behind.
-/

namespace Callifornia.Signaling

open Concurrency Concurrency.Program FiniteMap Store

section Handlers

variable {exec : (op : Op) → World → op.Reply → World → Prop} {α β ε : Type} {world : World}
  (sound : ∀ op before reply after, exec op before reply after → World.exec op before reply after)

include sound

/-! ## Leaving and entering -/

variable {accepting : Accepting}
  (accepts : ∀ sender message before reply after,
    exec (.trySend sender message) before reply after →
      accepting before.roster.listening sender → reply = true)

section

include accepts

/-- Whoever leaves is detached, and so is everyone whose channel refuses the announcements. -/
theorem leaveRoomAndNotify_ensures (state : State) (roomId : RoomId) (nickname : Nickname)
    (reason : String) :
    (leaveRoomAndNotify state roomId nickname reason).Ensures exec world fun _ after =>
      ∃ victims, Refusing accepting state.node roomId world.roster victims ∧ after.roster =
        (world.roster.detach state.node roomId nickname).detachAll state.node roomId victims := by
  apply (detachPeer_ensures sound state roomId nickname reason).bind
  intro _ middle left
  rw [← left]
  apply (announce_ensures sound accepts state roomId nickname _).mono
  rintro _ after ⟨victims, refusing, last⟩
  rw [left] at refusing
  exact ⟨victims, fun victim member => (refusing victim member).of_detach, last⟩

/-- A participant leaves, those with refusing channels are detached, and the session has no
room. -/
theorem leaveRoomOf_ensures (state : State) (connection : ConnectionId) (sessionId : SessionId)
    (roomId : RoomId) (nickname : Nickname) (participants : Option (List String))
    (reason : String) :
    (leaveRoomOf state connection sessionId roomId nickname participants reason).run.Ensures exec
      world fun result after => result = .ok () ∧ ∃ victims,
        Refusing accepting state.node roomId world.roster victims ∧
        after.roster =
          world.roster.leave state.node sessionId roomId nickname victims := by
  apply leaves_except_bind (requireRedis_leaves sound)
  intro middle same
  apply (leaveRoomAndNotify_ensures sound accepts state roomId nickname reason).lift_bind
  rw [same]
  rintro _ left ⟨victims, refusing, left_eq⟩
  apply leaves_except_bind (leaves_adapt (hset_leaves sound sessionId "room_id" ""))
  intro cleared same
  apply leaves_lift_bind (setSessionRoom_leaves sound state sessionId none)
  rw [same]
  intro forgotten same
  refine ensures_lift.mpr ((setContext_keeps sound fun _ => by rfl).mono ?_)
  rintro _ after ⟨-, last⟩
  rw [last, same, left_eq]
  exact ⟨rfl, victims, refusing, rfl⟩

end

/-- The room is recorded in the hash and in the table of the node. -/
theorem recordRoom_leaves (state : State) (connection : ConnectionId) (sessionId : SessionId)
    (roomId : RoomId) :
    (recordRoom state connection sessionId roomId).run.Ensures exec world
      (Leaves (.ok ()) (world.roster.setRoom state.node sessionId (some roomId))) := by
  apply leaves_except_bind (leaves_adapt (hset_leaves sound sessionId "room_id" roomId))
  intro written same
  apply leaves_lift_bind (setSessionRoom_leaves sound state sessionId (some roomId))
  rw [same]
  intro noted same
  refine ensures_lift.mpr ((setContext_keeps sound fun _ => by rfl).mono ?_)
  rintro _ after ⟨-, last⟩
  refine ⟨rfl, ?_⟩
  rw [last, same]
  rfl

/-- What a request finds of its session. -/
structure Checked (roster : Roster) (connection : ConnectionId) (sessionId : SessionId)
    (session : SessionState) : Prop where
  found : roster.session sessionId = some session
  named : session.nickname ≠ ""
  free : ∀ other ∈ roster.attached connection, other = sessionId

/-- A session that is checked becomes the one of the connection and is known to the node. -/
theorem checkSession_ensures (state : State) (connection : ConnectionId) (sessionId : SessionId) :
    (checkSession state connection sessionId).run.Ensures exec world fun result after =>
      match result with
      | .error error => error ≠ .writeFailed ∧ after.roster = world.roster
      | .ok session => Checked world.roster connection sessionId session ∧
          after.roster = world.roster.check state.node connection sessionId session := by
  apply (getContext_ensures sound connection).lift_bind
  rintro context middle ⟨own, same⟩
  split
  · exact ensures_throw.mpr ⟨nofun, same⟩
  · rename_i free
    apply leaves_except_bind (requireRedis_leaves sound)
    rw [same]
    intro middle same
    apply leaves_except_bind (leaves_adapt (sessionGet_leaves sound sessionId))
    rw [same]
    intro read same
    split
    · exact ensures_throw.mpr ⟨nofun, same⟩
    · rename_i session found
      obtain ⟨found, named⟩ := Option.filter_eq_some_iff.mp found
      apply leaves_lift_bind (setContext_leaves sound fun _ => by rfl)
      rw [same]
      intro bound same
      apply leaves_lift_bind (upsertSession_leaves sound state sessionId session)
      rw [same]
      intro after left
      refine ensures_except_pure.mpr ⟨⟨found, of_decide_eq_true named, ?_⟩, left⟩
      intro other held
      by_contra different
      apply free
      rw [own, held]
      simpa using different

/-- The peer may enter the room. -/
structure Enterable (roster : Roster) (sfuAddr : Address) (roomId : RoomId)
    (nickname : Nickname) : Prop where
  bound : roster.Bound roomId
  absent : (roomId, nickname) ∉ roster.members
  unknown : (sfuAddr, roomId, nickname) ∉ roster.sfuPeers

/-- Somebody joins the members of a bound room, unless the nickname is among them. -/
theorem joinRoom_ensures (roomId : RoomId) (nickname : Nickname) :
    (joinRoom roomId nickname).run.Ensures exec world fun result after =>
      match result with
      | .error _ => after.roster = world.roster ∧
          (world.roster.Bound roomId → (roomId, nickname) ∈ world.roster.members)
      | .ok _ => (world.roster.Bound roomId ∧ (roomId, nickname) ∉ world.roster.members) ∧
          after.roster = { world.roster with
            members := insert (roomId, nickname) world.roster.members } := by
  apply leaves_except_bind (exists_leaves sound roomId)
  intro middle same
  by_cases bound : world.roster.Bound roomId
  · rw [decide_eq_true bound]
    simp only [Bool.not_true, Bool.false_eq_true, if_false]
    have asked : (redisCommand RedisRoomError.ofFailure (.sismember roomId nickname)).run.Ensures
        exec middle (Leaves (.ok (decide ((roomId, nickname) ∈ world.roster.members)))
          world.roster) := by
      rw [← same]
      apply command_leaves sound
      intro reply after taken
      exact taken
    apply leaves_except_bind asked
    intro middle same
    by_cases member : (roomId, nickname) ∈ world.roster.members
    · rw [decide_eq_true member]
      exact ensures_throw.mpr ⟨same, fun _ => member⟩
    · rw [decide_eq_false member]
      have added : (redisCommand RedisRoomError.ofFailure (.sadd roomId nickname)).run.Ensures
          exec middle (Leaves (.ok ()) { world.roster with
            members := insert (roomId, nickname) world.roster.members }) := by
        rw [← same]
        apply ensures_command sound
        intro reply redis taken
        obtain rfl : redis = _ := taken
        exact ⟨rfl, rfl⟩
      apply leaves_except_bind added
      intro added same
      have listed : (redisCommand RedisRoomError.ofFailure (.smembers roomId)).run.Ensures
          exec added fun result after => (∃ names, result = .ok names) ∧
            after.roster = added.roster := by
        apply ensures_command sound
        intro names redis taken
        obtain ⟨-, rfl⟩ := taken
        exact ⟨⟨names, rfl⟩, rfl⟩
      refine listed.except_bind (fun names after left => ?_) fun error after left => ?_
      · exact ensures_except_pure.mpr ⟨⟨bound, member⟩, left.2.trans same⟩
      · obtain ⟨_, impossible⟩ := left.1
        cases impossible
  · rw [decide_eq_false bound]
    exact ensures_throw.mpr ⟨same, fun there => absurd there bound⟩

/-- A peer is created where there was none, or nothing has happened. -/
theorem ensurePeer_ensures (state : State) (sfuAddr : Address) (roomId : RoomId)
    (nickname : Nickname) :
    (state.ensurePeer sfuAddr roomId nickname).Ensures exec world fun result after =>
      match result with
      | .error _ => after.roster = world.roster
      | .ok _ => (sfuAddr, roomId, nickname) ∉ world.roster.sfuPeers ∧
          after.roster = { world.roster with
            sfuPeers := insert (sfuAddr, roomId, nickname) world.roster.sfuPeers } := by
  apply ensures_call.mpr
  intro reply after step
  apply ensures_ret.mpr
  rcases sound _ _ _ _ step with ⟨rfl, -, -, absent, rfl⟩ | ⟨⟨message, rfl⟩, rfl⟩
  · exact ⟨absent, rfl⟩
  · rfl

/-- Undoing a join takes the member out. -/
theorem undoJoin_leaves (roomId : RoomId) (nickname : Nickname) :
    (undoJoin roomId nickname).Ensures exec world fun _ after =>
      after.roster = { world.roster with
        members := world.roster.members.erase (roomId, nickname) } := by
  apply ensures_bind.mpr
  apply leaves_except_bind (srem_leaves sound roomId nickname)
  intro after left
  exact ensures_except_pure.mpr (ensures_ret.mpr left)

/-- Undoing a create closes the room. -/
theorem undoBinding_ensures (roomId : RoomId) :
    (undoBinding roomId).Ensures exec world fun _ after =>
      after.roster = world.roster.close roomId := by
  apply (closeRoomBinding_ensures sound roomId).bind
  intro _ after left
  exact ensures_ret.mpr left

/-- Entering a room either does all it should or changes nothing. -/
theorem enterRoom_ensures (state : State) (sfuAddr : Address) (roomId : RoomId)
    (nickname : Nickname) :
    (enterRoom state sfuAddr roomId nickname).run.Ensures exec world fun result after =>
      match result with
      | .error error => error ≠ .writeFailed ∧ after.roster = world.roster
      | .ok _ => Enterable world.roster sfuAddr roomId nickname ∧
          after.roster = world.roster.enter sfuAddr roomId nickname := by
  refine (ensures_adapt.mpr ((joinRoom_ensures sound roomId nickname).mono fun result after left =>
    ?_) : (redis (joinRoom roomId nickname)).run.Ensures exec world fun result after =>
      match result with
      | .error error => error ≠ .writeFailed ∧ after.roster = world.roster
      | .ok _ => (world.roster.Bound roomId ∧ (roomId, nickname) ∉ world.roster.members) ∧
          after.roster = { world.roster with
            members := insert (roomId, nickname) world.roster.members }).except_bind ?_ ?_
  · cases result with
    | error error => exact ⟨by cases error <;> nofun, left.1⟩
    | ok participants => exact left
  · rintro participants joined ⟨⟨bound, absent⟩, same⟩
    apply (ensurePeer_ensures sound state sfuAddr roomId nickname).lift_bind
    intro result peered left
    cases result with
    | ok =>
        obtain ⟨unknown, left⟩ := left
        rw [same] at left unknown
        exact ensures_except_pure.mpr ⟨⟨bound, absent, unknown⟩, left⟩
    | error error =>
        apply (undoJoin_leaves sound roomId nickname).lift_bind
        intro _ undone undo
        refine ensures_throw.mpr ⟨by cases error <;> nofun, ?_⟩
        rw [undo, show peered.roster = _ from left, same]
        simp only [Finset.erase_insert absent]
  · intro error after left
    exact left

/-- A room that cannot be opened is closed again. -/
theorem openRoom_ensures (state : State) (sfuAddr : Address) (roomId : RoomId)
    (nickname : Nickname) :
    (openRoom state sfuAddr roomId nickname).run.Ensures exec world fun result after =>
      match result with
      | .error error => error ≠ .writeFailed ∧ after.roster = world.roster.close roomId
      | .ok () => Enterable world.roster sfuAddr roomId nickname ∧
          after.roster = world.roster.enter sfuAddr roomId nickname := by
  apply (joinRoom_ensures sound roomId nickname).lift_bind
  intro result joined left
  cases result with
  | error error =>
      apply (undoBinding_ensures sound roomId).lift_bind
      intro _ closed same
      refine ensures_throw.mpr ⟨by cases error <;> nofun, ?_⟩
      rw [same, left.1]
  | ok participants =>
      obtain ⟨⟨bound, absent⟩, same⟩ := left
      apply (ensurePeer_ensures sound state sfuAddr roomId nickname).lift_bind
      intro result peered left
      cases result with
      | ok =>
          obtain ⟨unknown, left⟩ := left
          rw [same] at left unknown
          exact ensures_except_pure.mpr ⟨⟨bound, absent, unknown⟩, left⟩
      | error error =>
          apply (undoJoin_leaves sound roomId nickname).lift_bind
          intro _ undone undo
          apply (undoBinding_ensures sound roomId).lift_bind
          intro _ closed close
          refine ensures_throw.mpr ⟨by cases error <;> nofun, ?_⟩
          rw [close, undo, show peered.roster = _ from left, same]
          simp only [Finset.erase_insert absent]

/-- The target of a join is the SFU of the binding. -/
theorem joinTarget_ensures (state : State) (roomId : RoomId) :
    (joinTarget state roomId).run.Ensures exec world fun result after =>
      after.roster = world.roster ∧
        match result with
        | .error error => error ≠ .writeFailed
        | .ok sfuAddr => world.roster.sfuAddr roomId = some sfuAddr := by
  refine (ensures_adapt.mpr ((getRoomRoute_leaves sound roomId).mono fun result after left => ?_) :
    (redis (getRoomRoute roomId)).run.Ensures exec world fun result after =>
      after.roster = world.roster ∧
        match result with
        | .error error => error ≠ .writeFailed
        | .ok route => world.roster.route roomId = .ok route).except_bind ?_ ?_
  · obtain ⟨rfl, same⟩ := left
    refine ⟨same, ?_⟩
    cases world.roster.route roomId with
    | error error => cases error <;> nofun
    | ok route => rfl
  · rintro route middle ⟨same, found⟩
    split
    · exact ensures_throw.mpr ⟨same, nofun⟩
    · split
      · exact ensures_throw.mpr ⟨same, nofun⟩
      · split
        · exact ensures_throw.mpr ⟨same, nofun⟩
        · rename_i sfuAddr named
          refine ensures_except_pure.mpr ⟨same, ?_⟩
          simp only [Roster.sfuAddr, found, Except.toOption, Option.bind_some, named]
  · intro error after left
    exact left

omit sound in
/-- How the two texts that the script replies are taken. -/
theorem ofReply_pair (instanceId : InstanceId) (sfuAddr : Address) :
    SfuAssignment.ofReply [instanceId, sfuAddr] =
      if instanceId = "__ROOM_EXISTS__" then .error .roomAlreadyExists
      else if sfuAddr = "" then .error .invalidRoomTarget
      else .ok ⟨sfuAddr⟩ := by
  by_cases empty : sfuAddr = ""
  · simp [SfuAssignment.ofReply, Option.filter, empty]
  · simp [SfuAssignment.ofReply, Option.filter, empty]

/-- The instance a new room is bound to. -/
structure Chosen (roster : Roster) (roomId : RoomId) (sfuAddr : Address) (best : SfuInstance) :
    Prop where
  unbound : roster.bindings.lookup roomId = none
  addr : best.grpcAddr = sfuAddr
  named : sfuAddr ≠ ""

variable {regular : Prop} (records : regular →
  ∀ roomId ownerHost ownerPort ownerId clock staleAfter before reply after,
    exec (.redis (.assignRoomToSfu roomId ownerHost ownerPort ownerId clock staleAfter)) before
      reply after →
    ∀ instanceId record, before.redis.instances.lookup instanceId = some record →
      record.grpcAddr ≠ "" ∧ record.instanceId ≠ "__ROOM_EXISTS__")

include records in
/-- An assignment binds the room to an instance, or fails; with irregular records it may bind
the room and fail. -/
theorem assignRoom_ensures (roomId : RoomId) (ownerId : NodeId) (ownerHost : String)
    (ownerPort : UInt16) :
    (redis (assignRoomToLeastLoadedSfu roomId ownerId ownerHost ownerPort)).run.Ensures exec world
      fun result after =>
        match result with
        | .error error => error ≠ .writeFailed ∧ (after.roster = world.roster ∨ ¬ regular ∧
            ∃ best, world.roster.bindings.lookup roomId = none ∧ after.roster =
              world.roster.bind roomId ownerHost (toString ownerPort.toNat) ownerId best)
        | .ok assignment => ∃ best, Chosen world.roster roomId assignment.sfuGrpcAddr best ∧
            after.roster =
              world.roster.bind roomId ownerHost (toString ownerPort.toNat) ownerId best := by
  apply ensures_adapt.mpr
  have clock : unixNow.Ensures exec world fun _ after => after.roster = world.roster :=
    ensures_silent sound ⟨trivial, fun _ => trivial⟩
  apply clock.lift_bind
  intro now middle same
  rw [← same]
  apply ensures_except_bind.mpr
  apply ensures_call.mpr
  intro reply last step
  have listed := fun holds => records holds _ _ _ _ _ _ _ _ _ step
  obtain ⟨value, redis, ⟨all, lists, outcome⟩, rfl, rfl⟩ := sound _ _ _ _ step
  apply ensures_ret.mpr
  apply ensures_ret.mpr
  unfold Redis.assignRoomToSfu at outcome
  split at outcome
  · cases outcome
    exact ⟨nofun, .inl rfl⟩
  · rename_i best found
    split at outcome
    · cases outcome
      exact ⟨nofun, .inl rfl⟩
    · rename_i unbound
      cases outcome
      have absent : middle.roster.bindings.lookup roomId = none := by
        cases lookup : middle.roster.bindings.lookup roomId with
        | none => rfl
        | some hash => exact absurd (congrArg Option.isSome lookup) unbound
      have member := (lists.mem_iff).mp (Redis.bestInstance_mem _ found)
      rw [ofReply_pair]
      by_cases taken : best.instanceId = "__ROOM_EXISTS__"
      · rw [if_pos taken]
        refine ⟨nofun, .inr ⟨fun holds => ?_, best, absent, World.roster_assign⟩⟩
        obtain ⟨_, recorded⟩ := member
        exact (listed holds _ _ recorded).2 taken
      · rw [if_neg taken]
        by_cases empty : best.grpcAddr = ""
        · rw [if_pos empty]
          refine ⟨nofun, .inr ⟨fun holds => ?_, best, absent, World.roster_assign⟩⟩
          obtain ⟨_, recorded⟩ := member
          exact (listed holds _ _ recorded).1 empty
        · rw [if_neg empty]
          exact ⟨best, ⟨absent, rfl, empty⟩, World.roster_assign⟩

/-! ## The handlers -/

/-- A request that came to nothing, its session looked up or not. -/
def Unmoved (node : NodeId) (connection : ConnectionId) (sessionId : SessionId)
    (before after : Roster) : Prop :=
  after = before ∨ ∃ session, Checked before connection sessionId session ∧
    after = before.check node connection sessionId session

/-- A session that may enter a room. -/
structure Admitted (roster : Roster) (connection : ConnectionId) (sessionId : SessionId)
    (session : SessionState) : Prop extends Checked roster connection sessionId session where
  outside : session.roomId = none

/-- A session is let in if it is in no room and the connection's token does not refuse. -/
theorem admission_ensures (state : State) (connection : ConnectionId) (sessionId : SessionId)
    (refuses : ConnectionContext → Prop) [DecidablePred refuses] :
    (do
      let session ← checkSession state connection sessionId
      if session.roomId.isSome then throw .alreadyInRoom
      else do
        let context ← getContext connection
        if refuses context then throw .unauthorized
        else return session : WsCall SessionState).run.Ensures exec world fun result after =>
      match result with
      | .error error => error ≠ .writeFailed ∧
          Unmoved state.node connection sessionId world.roster after.roster
      | .ok session => Admitted world.roster connection sessionId session ∧
          after.roster = world.roster.check state.node connection sessionId session := by
  refine (checkSession_ensures sound state connection sessionId).except_bind ?_ ?_
  · rintro session checked ⟨holds, same⟩
    split
    · exact ensures_throw.mpr ⟨nofun, .inr ⟨session, holds, same⟩⟩
    · rename_i outside
      apply (getContext_ensures sound connection).lift_bind
      rw [same]
      rintro context after ⟨-, left⟩
      split
      · exact ensures_throw.mpr ⟨nofun, .inr ⟨session, holds, left⟩⟩
      · exact ensures_except_pure.mpr ⟨⟨holds, Option.not_isSome_iff_eq_none.mp outside⟩, left⟩
  · rintro error after ⟨other, same⟩
    exact ⟨other, .inl same⟩

/-- The room is there to be entered: it was before, or it has been created. -/
inductive Opens (state : State) (before : Roster) (roomId : RoomId) (sfuAddr : Address) :
    Roster → Prop
  | join : before.sfuAddr roomId = some sfuAddr → Opens state before roomId sfuAddr before
  | create {best : SfuInstance} : roomId ∉ before.issued → roomId ≠ "" →
      Chosen before roomId sfuAddr best →
      Opens state before roomId sfuAddr ((before.draw roomId).bind roomId
        state.config.signalingPublicHost (toString state.config.signalingPublicPort.toNat)
        state.config.publicNodeId best)

/-- A session has been let in and has entered a room; its peer is not registered yet. -/
structure Entered (state : State) (connection : ConnectionId) (sessionId : SessionId)
    (roomId : RoomId) (session : SessionState) (sfuAddr : Address) (before after : Roster) :
    Prop where
  admitted : Admitted before connection sessionId session
  entered : ∃ opened, Opens state (before.check state.node connection sessionId session) roomId
      sfuAddr opened ∧ Enterable opened sfuAddr roomId session.nickname ∧
    after = (opened.enter sfuAddr roomId session.nickname).setRoom state.node sessionId
      (some roomId)

/-- A request to enter a room has been refused. -/
inductive Refused (state : State) (connection : ConnectionId) (sessionId : SessionId)
    (regular : Prop) (before : Roster) : Roster → Prop
  | unmoved {after : Roster} : Unmoved state.node connection sessionId before after →
      Refused state connection sessionId regular before after
  | drawn {session : SessionState} {roomId : RoomId} :
      Checked before connection sessionId session →
      Refused state connection sessionId regular before
        ((before.check state.node connection sessionId session).draw roomId)
  | closed {session : SessionState} {roomId : RoomId} {sfuAddr : Address} {opened : Roster} :
      Checked before connection sessionId session → roomId ∉ before.issued →
      Opens state (before.check state.node connection sessionId session) roomId sfuAddr opened →
      Refused state connection sessionId regular before (opened.close roomId)
  | stranded {session : SessionState} {roomId : RoomId} {best : SfuInstance} : ¬ regular →
      Checked before connection sessionId session → roomId ∉ before.issued →
      before.bindings.lookup roomId = none →
      Refused state connection sessionId regular before
        (((before.check state.node connection sessionId session).draw roomId).bind roomId
          state.config.signalingPublicHost (toString state.config.signalingPublicPort.toNat)
          state.config.publicNodeId best)

/-- What a request to enter a room has done when it ends. -/
def EntryOutcome (state : State) (connection : ConnectionId) (sessionId : SessionId)
    (accepting : Accepting) (regular : Prop) (before : Roster) :
    Except WsHandlerError Unit → Roster → Prop
  | .error error, after =>
      (error = .writeFailed ∧ ∃ roomId session sfuAddr,
        Entered state connection sessionId roomId session sfuAddr before after) ∨
      (error ≠ .writeFailed ∧ Refused state connection sessionId regular before after)
  | .ok (), after => ∃ roomId session sfuAddr entered victims,
      Entered state connection sessionId roomId session sfuAddr before entered ∧
      Refusing accepting state.node roomId
        (entered.register state.node roomId session.nickname ⟨connection, some sfuAddr⟩) victims ∧
      after = (entered.register state.node roomId session.nickname
        ⟨connection, some sfuAddr⟩).detachAll state.node roomId victims

/-- An answer is not in the roster, and a failed one ends the connection. -/
theorem sendMessage_ensures (connection : ConnectionId) (message : ServerMessage) :
    (sendMessage connection message).run.Ensures exec world fun result after =>
      after.roster = world.roster ∧ (result = .ok () ∨ result = .error .writeFailed) := by
  have sent : (issue (.sendMessage connection message)).Ensures exec world fun _ after =>
      after.roster = world.roster := ensures_silent sound ⟨trivial, fun _ => trivial⟩
  apply sent.lift_bind
  intro written after same
  cases written with
  | true => exact ensures_except_pure.mpr ⟨same, .inl rfl⟩
  | false => exact ensures_throw.mpr ⟨same, .inr rfl⟩

include accepts in
/-- A join enters the room, or leaves everybody where they were. -/
theorem handleJoinLocked_ensures (state : State) (connection : ConnectionId)
    (sessionId : SessionId) (roomId : RoomId) :
    (handleJoinLocked state connection sessionId roomId).run.Ensures exec world
      fun result after =>
        EntryOutcome state connection sessionId accepting regular world.roster result
          after.roster := by
  refine (admission_ensures sound state connection sessionId _).except_bind ?_ ?_
  · rintro session checked ⟨admitted, same⟩
    refine (joinTarget_ensures sound state roomId).except_bind ?_ ?_
    · rintro sfuAddr routed ⟨same', target⟩
      refine (enterRoom_ensures sound state sfuAddr roomId session.nickname).except_bind ?_ ?_
      · rintro participants entered ⟨enterable, same''⟩
        apply leaves_except_bind (recordRoom_leaves sound state connection sessionId roomId)
        intro recorded last
        rw [same''] at last
        rw [same'] at last enterable
        rw [same] at last enterable target
        have entered : Entered state connection sessionId roomId session sfuAddr world.roster
            recorded.roster := ⟨admitted, _, .join target, enterable, last⟩
        refine (sendMessage_ensures sound connection _).except_bind ?_ ?_
        · rintro _ sent ⟨same, -⟩
          apply leaves_lift_bind (register_leaves sound state roomId session.nickname _)
          rw [same]
          intro registered same
          refine ensures_lift.mpr ((announce_ensures sound accepts state roomId _ _).mono ?_)
          rintro _ after ⟨victims, refusing, left⟩
          rw [same] at left refusing
          exact ⟨roomId, session, sfuAddr, _, victims, entered, refusing, left⟩
        · rintro error after ⟨same, written⟩
          rcases written with ok | failed
          · cases ok
          · cases failed
            rw [← same] at entered
            exact .inl ⟨rfl, roomId, session, sfuAddr, entered⟩
      · rintro error after ⟨other, last⟩
        rw [same', same] at last
        exact .inr ⟨other, .unmoved (.inr ⟨session, admitted.toChecked, last⟩)⟩
    · rintro error after ⟨last, other⟩
      rw [same] at last
      exact .inr ⟨other, .unmoved (.inr ⟨session, admitted.toChecked, last⟩)⟩
  · rintro error after ⟨other, unmoved⟩
    exact .inr ⟨other, .unmoved unmoved⟩

/-- A drawn id is a fresh one. -/
theorem newUuid_ensures :
    (issue .newUuid).Ensures exec world fun id after =>
      (id ∉ world.roster.issued ∧ id ≠ "") ∧ after.roster = world.roster.draw id := by
  apply ensures_issue sound
  intro id after step
  obtain ⟨fresh, rfl⟩ := step
  exact ⟨fresh, rfl⟩

include records in
/-- A create enters a fresh room, or leaves everybody where they were. -/
theorem handleCreateLocked_ensures (state : State) (connection : ConnectionId)
    (sessionId : SessionId) :
    (handleCreateLocked state connection sessionId).run.Ensures exec world
      fun result after =>
        EntryOutcome state connection sessionId accepting regular world.roster result
          after.roster := by
  refine (admission_ensures sound state connection sessionId _).except_bind ?_ ?_
  · rintro session checked ⟨admitted, same⟩
    apply (newUuid_ensures sound).lift_bind
    rintro roomId drawn ⟨⟨fresh, nonempty⟩, same'⟩
    rw [same] at same'
    have unissued : roomId ∉ (world.roster.check state.node connection sessionId session).issued :=
      same ▸ fresh
    refine (assignRoom_ensures sound records roomId _ _ _).except_bind ?_ ?_
    · rintro assignment bound ⟨best, chosen, same''⟩
      rw [same'] at same'' chosen
      have opens : Opens state (world.roster.check state.node connection sessionId session) roomId
          assignment.sfuGrpcAddr bound.roster := by
        rw [same'']
        exact .create unissued nonempty ⟨chosen.unbound, chosen.addr, chosen.named⟩
      refine (openRoom_ensures sound state assignment.sfuGrpcAddr roomId
        session.nickname).except_bind ?_ ?_
      · rintro _ entered ⟨enterable, last⟩
        apply leaves_except_bind (recordRoom_leaves sound state connection sessionId roomId)
        rw [last]
        intro recorded last
        have entered : Entered state connection sessionId roomId session assignment.sfuGrpcAddr
            world.roster recorded.roster := ⟨admitted, _, opens, enterable, last⟩
        refine (sendMessage_ensures sound connection _).except_bind ?_ ?_
        · rintro _ sent ⟨same, -⟩
          refine ensures_lift.mpr ((register_leaves sound state roomId session.nickname _).mono ?_)
          rintro _ after ⟨-, left⟩
          rw [same] at left
          exact ⟨roomId, session, _, _, [], entered, nofun, left⟩
        · rintro error after ⟨same, written⟩
          rcases written with ok | failed
          · cases ok
          · cases failed
            rw [← same] at entered
            exact .inl ⟨rfl, roomId, session, _, entered⟩
      · rintro error after ⟨other, last⟩
        rw [last]
        exact .inr ⟨other, .closed admitted.toChecked unissued opens⟩
    · rintro error after ⟨other, last⟩
      refine .inr ⟨other, ?_⟩
      rcases last with last | ⟨irregular, best, unbound, last⟩
      · rw [last, same']
        exact .drawn admitted.toChecked
      · rw [last, same']
        rw [same'] at unbound
        exact .stranded irregular admitted.toChecked unissued unbound
  · rintro error after ⟨other, unmoved⟩
    exact .inr ⟨other, .unmoved unmoved⟩

/-- A handler runs between two silent steps when it holds the lock. -/
theorem withSessionLock_ensures (state : State) (sessionId : SessionId) {handler : WsCall Unit}
    {post : Except WsHandlerError Unit → World → Prop}
    (refused : ∀ lockOwner after, after.roster = world.roster.draw lockOwner →
      post (.error .sessionConflict) after)
    (locked : ∀ lockOwner middle, middle.roster = world.roster.draw lockOwner →
      handler.run.Ensures exec middle fun result last =>
        ∀ after, after.roster = last.roster → post result after) :
    (withSessionLock state sessionId handler).run.Ensures exec world post := by
  apply leaves_except_bind (requireRedis_leaves sound)
  intro middle same
  apply (newUuid_ensures sound).lift_bind
  rintro lockOwner drawn ⟨-, same'⟩
  rw [same] at same'
  have acquired : (redis (acquireSessionLock sessionId lockOwner
      state.config.sessionLockTtlMs)).run.Ensures exec drawn fun result after =>
        (∃ value, result = .ok value) ∧ after.roster = drawn.roster := by
    apply ensures_adapt.mpr
    apply ensures_command sound
    intro value redis taken
    refine ⟨⟨value, rfl⟩, ?_⟩
    have step : World.exec (.redis (.setNx (.sessionLock sessionId) lockOwner
        (some state.config.sessionLockTtlMs))) drawn (.ok value) { drawn with redis } :=
      ⟨value, redis, taken, rfl, rfl⟩
    exact World.exec_silent step nofun
  refine acquired.except_bind ?_ ?_
  · rintro value locking ⟨-, same⟩
    rw [same'] at same
    cases value with
    | false => exact ensures_throw.mpr (refused lockOwner locking same)
    | true =>
        apply (locked lockOwner locking same).bind
        intro result last holds
        have released : (releaseSessionLock sessionId lockOwner).run.Ensures exec last
            fun _ after => after.roster = last.roster := by
          apply ensures_silent sound
          exact redisCommand_drop_only nofun
        apply released.bind
        intro _ after left
        exact ensures_ret.mpr (holds after left)
  · rintro error after ⟨⟨value, impossible⟩, -⟩
    cases impossible

/-- What a request to attach a connection has done when it ends. -/
inductive AttachOutcome (state : State) (connection : ConnectionId) (before : Roster) :
    Except WsHandlerError Unit → Roster → Prop
  | refused {error : WsHandlerError} : error ≠ .writeFailed →
      AttachOutcome state connection before (.error error) before
  | attached {result : Except WsHandlerError Unit} {sessionId : SessionId}
      {session : SessionState} :
      (result = .ok () ∨ result = .error .writeFailed) →
      before.attached connection = none → before.session sessionId = some session →
      AttachOutcome state connection before result
        ((before.hset sessionId "signaling_owner_id" state.config.publicNodeId).check state.node
          connection sessionId session)

/-- The check of a token changes nobody's place. -/
theorem admitToken_ensures (state : State) (jwt : Jwt) (token : String) :
    (admitToken state jwt token).run.Ensures exec world fun result after =>
      after.roster = world.roster ∧ result ≠ .error .writeFailed := by
  have clock : unixNow.Ensures exec world fun _ after => after.roster = world.roster :=
    ensures_silent sound ⟨trivial, fun _ => trivial⟩
  apply clock.lift_bind
  intro now middle same
  split
  · exact ensures_throw.mpr ⟨same, nofun⟩
  · rename_i claims valid
    split
    · exact ensures_except_pure.mpr ⟨same, nofun⟩
    · have consumed : (redis (consumeJti claims.jti (max (claims.exp - claims.iat) 60 +
          30))).run.Ensures exec middle fun result after =>
            after.roster = middle.roster ∧ ∃ value, result = .ok value := by
        apply ensures_adapt.mpr
        apply ensures_command sound
        intro value redis taken
        refine ⟨?_, value, rfl⟩
        have step : World.exec (.redis (.setNx (.jti claims.jti) "1"
            (some (max (max (claims.exp - claims.iat) 60 + 30) 1 * 1000)))) middle (.ok value)
            { middle with redis } := ⟨value, redis, taken, rfl, rfl⟩
        exact World.exec_silent step nofun
      refine consumed.except_bind ?_ ?_
      · rintro used after ⟨left, -⟩
        rw [same] at left
        split
        · exact ensures_except_pure.mpr ⟨left, nofun⟩
        · exact ensures_throw.mpr ⟨left, nofun⟩
      · rintro error after ⟨-, value, impossible⟩
        cases impossible

/-- The count of a node's connections is not in the roster. -/
theorem incrementInstanceLoad_leaves (nodeId : NodeId) :
    (redis (incrementInstanceLoad nodeId)).run.Ensures exec world
      (Leaves (.ok ()) world.roster) := by
  apply leaves_adapt
  apply ensures_command sound
  intro _ redis taken
  have step : World.exec (.redis (.zincr .instanceLoad nodeId 1)) world (.ok ())
      { world with redis } := ⟨(), redis, taken, rfl, rfl⟩
  exact ⟨rfl, World.exec_silent step nofun⟩

/-- An attach binds the connection to a session, or changes nothing. -/
theorem handleAttach_ensures (state : State) (connection : ConnectionId) (jwt : Jwt)
    (token : String) :
    (handleAttach state connection jwt token).run.Ensures exec world fun result after =>
      AttachOutcome state connection world.roster result after.roster := by
  apply (getContext_ensures sound connection).lift_bind
  rintro context middle ⟨own, same⟩
  split
  · exact ensures_throw.mpr (same ▸ .refused nofun)
  · rename_i free
    apply leaves_except_bind (requireRedis_leaves sound)
    rw [same]
    intro middle same
    refine (admitToken_ensures sound state jwt token).except_bind ?_ ?_
    · rintro claims admitted ⟨same', -⟩
      rw [same] at same'
      apply leaves_except_bind (leaves_adapt (sessionGet_leaves sound claims.sessionId))
      rw [same']
      intro read same
      split
      · exact ensures_throw.mpr (same ▸ .refused nofun)
      · rename_i session filtered
        have found := (Option.filter_eq_some_iff.mp filtered).1
        apply leaves_except_bind (leaves_adapt (hset_leaves sound claims.sessionId
          "signaling_owner_id" state.config.publicNodeId))
        rw [same]
        intro owned same
        apply leaves_lift_bind (setContext_leaves sound fun _ => by rfl)
        rw [same]
        intro attached same
        apply leaves_except_bind (incrementInstanceLoad_leaves sound _)
        rw [same]
        intro counted same
        apply leaves_lift_bind (setContext_keeps sound fun _ => by rfl)
        rw [same]
        intro renewing same
        apply leaves_lift_bind (upsertSession_leaves sound state claims.sessionId session)
        rw [same]
        intro known same
        apply (sendMessage_ensures sound connection _).mono
        rintro result after ⟨left, written⟩
        rw [left, same]
        rw [own] at free
        exact .attached written (Option.not_isSome_iff_eq_none.mp free) found
    · rintro error after ⟨left, other⟩
      rw [left, same]
      exact .refused fun equal => other (congrArg _ equal)

/-- What a logout has done when it ends. -/
inductive LogoutOutcome (state : State) (connection : ConnectionId) (sessionId : SessionId)
    (accepting : Accepting) (before : Roster) : Except WsHandlerError Unit → Roster → Prop
  | refused {error : WsHandlerError} : error ≠ .writeFailed →
      LogoutOutcome state connection sessionId accepting before (.error error) before
  | outside {result : Except WsHandlerError Unit} {session : SessionState} :
      Checked before connection sessionId session → session.roomId = none →
      LogoutOutcome state connection sessionId accepting before result
        ((before.check state.node connection sessionId session).logout state.node connection
          sessionId session.nickname)
  | inside {result : Except WsHandlerError Unit} {session : SessionState} {roomId : RoomId}
      {victims : List Nickname} :
      Checked before connection sessionId session → session.roomId = some roomId →
      Refusing accepting state.node roomId before victims →
      LogoutOutcome state connection sessionId accepting before result
        (((before.check state.node connection sessionId session).leave state.node sessionId roomId
          session.nickname victims).logout state.node connection sessionId session.nickname)

/-- A nickname is released if the session holds it. -/
theorem releaseNickLease_leaves (nickname : Nickname) (sessionId : SessionId) :
    (releaseNickLease nickname sessionId).run.Ensures exec world
      (Leaves (.ok ()) (world.roster.release nickname sessionId)) := by
  have released : (redisCommand RedisRoomError.ofFailure
      (.compareAndDel (.nick nickname) sessionId)).run.Ensures exec world fun result after =>
        (∃ value, result = .ok value) ∧
          after.roster = world.roster.release nickname sessionId := by
    apply ensures_command sound
    intro value redis taken
    exact ⟨⟨value, rfl⟩, World.roster_release taken⟩
  refine released.except_bind ?_ ?_
  · rintro _ after ⟨-, left⟩
    exact ensures_except_pure.mpr ⟨rfl, left⟩
  · rintro error after ⟨⟨value, impossible⟩, -⟩
    cases impossible

/-- A deleted session has no hash. -/
theorem sessionDelete_leaves (sessionId : SessionId) :
    (sessionDelete sessionId).run.Ensures exec world
      (Leaves (.ok ()) (world.roster.deleteSession sessionId)) := by
  have deleted : (redisCommand RedisRoomError.ofFailure (.del (.session sessionId))).run.Ensures
      exec world fun result after => (∃ value, result = .ok value) ∧
        after.roster = world.roster.deleteSession sessionId := by
    apply ensures_command sound
    intro value redis taken
    obtain ⟨-, rfl⟩ := taken
    exact ⟨⟨value, rfl⟩, World.roster_deleteSession⟩
  refine deleted.except_bind ?_ ?_
  · rintro _ after ⟨-, left⟩
    exact ensures_except_pure.mpr ⟨rfl, left⟩
  · rintro error after ⟨⟨value, impossible⟩, -⟩
    cases impossible

/-- The count of a node's connections is not in the roster. -/
theorem decrementInstanceLoad_leaves (nodeId : NodeId) :
    (decrementInstanceLoad nodeId).run.Ensures exec world (Leaves (.ok ()) world.roster) := by
  have scored : (redisCommand RedisRoomError.ofFailure (.zscore .instanceLoad nodeId)).run.Ensures
      exec world (Leaves (.ok ((world.redis.scores .instanceLoad).lookup nodeId))
        world.roster) := by
    apply command_leaves sound
    intro reply after taken
    exact taken
  apply leaves_except_bind scored
  intro middle same
  apply ensures_command sound
  intro _ redis taken
  have step : World.exec (.redis (.zadd .instanceLoad nodeId
      (decremented ((world.redis.scores .instanceLoad).lookup nodeId)))) middle (.ok ())
      { middle with redis } := ⟨(), redis, taken, rfl, rfl⟩
  exact ⟨rfl, (World.exec_silent step nofun).trans same⟩

/-- A connection that is no longer counted stays where it is. -/
theorem uncountConnection_leaves (state : State) (connection : ConnectionId)
    (context : ConnectionContext) :
    (uncountConnection state connection context).run.Ensures exec world
      (Leaves (.ok ()) world.roster) := by
  unfold uncountConnection
  split
  · apply leaves_except_bind (leaves_adapt (decrementInstanceLoad_leaves sound _))
    intro middle same
    rw [← same]
    refine ensures_lift.mpr ((setContext_keeps sound fun _ => by rfl).mono ?_)
    rintro _ after ⟨-, left⟩
    exact ⟨rfl, left⟩
  · exact ensures_except_pure.mpr ⟨rfl, rfl⟩

/-- A logout gives up the nickname and the hash of the session. -/
theorem logoutRedis_leaves (state : State) (connection : ConnectionId) (sessionId : SessionId)
    (nickname : Nickname) :
    (logoutRedis state connection sessionId nickname).run.Ensures exec world
      (Leaves (.ok ()) ((world.roster.release nickname sessionId).deleteSession sessionId)) := by
  apply leaves_lift_bind (isRedisAvailable_leaves sound)
  intro middle same
  apply (getContext_ensures sound connection).lift_bind
  rw [same]
  rintro context middle ⟨-, same⟩
  apply leaves_except_bind (uncountConnection_leaves sound state connection context)
  rw [same]
  intro uncounted same
  apply leaves_except_bind (leaves_adapt (releaseNickLease_leaves sound nickname sessionId))
  rw [same]
  intro released same
  rw [← same]
  exact leaves_adapt (sessionDelete_leaves sound sessionId)

/-- The end of a logout. -/
theorem logoutRest_ensures (state : State) (connection : ConnectionId) (sessionId : SessionId)
    (nickname : Nickname) :
    (do
      logoutRedis state connection sessionId nickname
      state.removeSession sessionId
      setContext connection
        ({ · with leaseRenewer := none, sessionId := none, cachedSession := none })
      sendMessage connection (.loggedOut nickname) : WsCall Unit).run.Ensures exec world
      fun _ after => after.roster =
        world.roster.logout state.node connection sessionId nickname := by
  apply leaves_except_bind (logoutRedis_leaves sound state connection sessionId nickname)
  intro middle same
  apply leaves_lift_bind (removeSession_leaves sound state sessionId)
  rw [same]
  intro removed same
  apply leaves_lift_bind (setContext_leaves sound fun _ => by rfl)
  rw [same]
  intro detached same
  apply (sendMessage_ensures sound connection _).mono
  rintro result after ⟨left, -⟩
  rw [left, same]
  rfl

include accepts in
/-- A logout leaves the room and ends the session, or stops at the check. -/
theorem handleLogout_ensures (state : State) (connection : ConnectionId) (sessionId : SessionId)
    (participants : Option (List String)) :
    (handleLogout state connection sessionId participants).run.Ensures exec world
      fun result after =>
        LogoutOutcome state connection sessionId accepting world.roster result after.roster := by
  refine (checkSession_ensures sound state connection sessionId).except_bind ?_ ?_
  · rintro session checked ⟨holds, same⟩
    cases room : session.roomId with
    | none =>
        apply (logoutRest_ensures sound state connection sessionId session.nickname).mono
        intro result after left
        rw [left, same]
        exact .outside holds room
    | some roomId =>
        refine (leaveRoomOf_ensures sound accepts state connection sessionId roomId
          session.nickname participants "user_logout").except_bind ?_ ?_
        · rintro _ outside ⟨-, victims, refusing, left⟩
          apply (logoutRest_ensures sound state connection sessionId session.nickname).mono
          intro result after last
          rw [last, left, same]
          exact .inside holds room (same ▸ refusing).of_check
        · rintro error after ⟨impossible, -⟩
          cases impossible
  · rintro error after ⟨other, same⟩
    rw [same]
    exact .refused other

/-- What a leave has done when it ends. -/
inductive LeaveOutcome (state : State) (connection : ConnectionId) (sessionId : SessionId)
    (accepting : Accepting) (before : Roster) : Except WsHandlerError Unit → Roster → Prop
  | refused {result : Except WsHandlerError Unit} {after : Roster} :
      Unmoved state.node connection sessionId before after →
      LeaveOutcome state connection sessionId accepting before result after
  | left {result : Except WsHandlerError Unit} {session : SessionState} {roomId : RoomId}
      {victims : List Nickname} :
      Checked before connection sessionId session → session.roomId = some roomId →
      Refusing accepting state.node roomId before victims →
      LeaveOutcome state connection sessionId accepting before result
        ((before.check state.node connection sessionId session).leave state.node sessionId roomId
          session.nickname victims)

include accepts in
/-- A leave takes the session out of its room, or changes nothing. -/
theorem handleLeave_ensures (state : State) (connection : ConnectionId) (sessionId : SessionId)
    (roomId : RoomId) (participants : Option (List String)) :
    (handleLeave state connection sessionId roomId participants).run.Ensures exec world
      fun result after =>
        LeaveOutcome state connection sessionId accepting world.roster result after.roster := by
  refine (checkSession_ensures sound state connection sessionId).except_bind ?_ ?_
  · rintro session checked ⟨holds, same⟩
    split
    · exact ensures_throw.mpr (.refused (.inr ⟨session, holds, same⟩))
    · rename_i currentRoom room
      split
      · exact ensures_throw.mpr (.refused (.inr ⟨session, holds, same⟩))
      · rename_i equal
        obtain rfl := not_not.mp equal
        refine (leaveRoomOf_ensures sound accepts state connection sessionId currentRoom
          session.nickname participants "user_left").except_bind ?_ ?_
        · rintro _ outside ⟨-, victims, refusing, left⟩
          apply (sendMessage_ensures sound connection _).mono
          rintro result after ⟨last, -⟩
          rw [last, left, same]
          exact .left holds room (same ▸ refusing).of_check
        · rintro error after ⟨impossible, -⟩
          cases impossible
  · rintro error after ⟨-, same⟩
    exact .refused (.inl same)

/-- Looking up the SFU moves nobody. -/
theorem mediaTarget_ensures (state : State) (connection : ConnectionId) (sessionId : SessionId) :
    (mediaTarget state connection sessionId).run.Ensures exec world fun _ after =>
      Unmoved state.node connection sessionId world.roster after.roster := by
  refine (checkSession_ensures sound state connection sessionId).except_bind ?_ ?_
  · rintro session checked ⟨holds, same⟩
    have unmoved : Unmoved state.node connection sessionId world.roster checked.roster :=
      .inr ⟨session, holds, same⟩
    split
    · exact ensures_throw.mpr unmoved
    · rename_i roomId room
      have routed : (redis (getRoomRoute roomId)).run.Ensures exec checked fun _ after =>
          after.roster = checked.roster := by
        apply ensures_adapt.mpr
        apply (getRoomRoute_leaves sound roomId).mono
        rintro _ after ⟨-, left⟩
        exact left
      refine routed.except_bind ?_ ?_
      · intro route after left
        rw [← left] at unmoved
        split
        · exact ensures_throw.mpr unmoved
        · exact ensures_except_pure.mpr unmoved
      · intro error after left
        rw [← left] at unmoved
        exact unmoved
  · rintro error after ⟨-, same⟩
    exact .inl same

/-- An SDP moves nobody. -/
theorem handleSdp_ensures (state : State) (connection : ConnectionId) (sessionId : SessionId)
    (sdp sdpType : String) :
    (handleSdp state connection sessionId sdp sdpType).run.Ensures exec world fun _ after =>
      Unmoved state.node connection sessionId world.roster after.roster := by
  refine (mediaTarget_ensures sound state connection sessionId).except_bind ?_ ?_
  · rintro ⟨session, roomId, sfuAddr⟩ middle unmoved
    have asked : (issue (.handleSdp sfuAddr roomId session.nickname sdp sdpType)).Ensures exec
        middle fun _ after => after.roster = middle.roster :=
      ensures_silent sound ⟨trivial, fun _ => trivial⟩
    apply asked.lift_bind
    intro reply after same
    rw [← same] at unmoved
    split
    · exact ensures_throw.mpr unmoved
    · split
      · exact ensures_throw.mpr unmoved
      · apply (sendMessage_ensures sound connection _).mono
        rintro result last ⟨left, -⟩
        rw [← left] at unmoved
        exact unmoved
  · intro error after unmoved
    exact unmoved

/-- A candidate moves nobody. -/
theorem handleCandidate_ensures (state : State) (connection : ConnectionId)
    (sessionId : SessionId) (candidate sdpMid : String) :
    (handleCandidate state connection sessionId candidate sdpMid).run.Ensures exec world
      fun _ after => Unmoved state.node connection sessionId world.roster after.roster := by
  refine (mediaTarget_ensures sound state connection sessionId).except_bind ?_ ?_
  · rintro ⟨session, roomId, sfuAddr⟩ middle unmoved
    have asked : (issue (.addIceCandidate sfuAddr roomId session.nickname candidate
        sdpMid)).Ensures exec middle fun _ after => after.roster = middle.roster :=
      ensures_silent sound ⟨trivial, fun _ => trivial⟩
    apply asked.lift_bind
    intro reply after same
    rw [← same] at unmoved
    split
    · exact ensures_throw.mpr unmoved
    · split
      · exact ensures_throw.mpr unmoved
      · exact ensures_except_pure.mpr unmoved
  · intro error after unmoved
    exact unmoved

/-- What a message has done when its handler ends. -/
def Outcome (state : State) (connection : ConnectionId) (accepting : Accepting) (regular : Prop)
    (before : Roster) : ClientMessage → Except WsHandlerError Unit → Roster → Prop
  | .attach _, result, after => AttachOutcome state connection before result after
  | .logout sessionId _, result, after =>
      LogoutOutcome state connection sessionId accepting before result after
  | .create sessionId, result, after | .join sessionId _, result, after => ∃ lockOwner,
      (result = .error .sessionConflict ∧ after = before.draw lockOwner) ∨
        EntryOutcome state connection sessionId accepting regular (before.draw lockOwner) result
          after
  | .leave sessionId .., result, after =>
      LeaveOutcome state connection sessionId accepting before result after
  | .sdp sessionId .., _, after | .candidate sessionId .., _, after =>
      Unmoved state.node connection sessionId before after

include accepts records

/-- What each message does to the roster. -/
theorem handleClientMessage_ensures (state : State) (connection : ConnectionId) (jwt : Jwt)
    (message : ClientMessage) :
    (handleClientMessage state connection jwt message).run.Ensures exec world fun result after =>
      Outcome state connection accepting regular world.roster message result after.roster := by
  cases message with
  | attach token => exact handleAttach_ensures sound state connection jwt token
  | logout sessionId participants =>
      exact handleLogout_ensures sound accepts state connection sessionId participants
  | create sessionId =>
      apply withSessionLock_ensures sound
      · intro lockOwner after same
        exact ⟨lockOwner, .inl ⟨rfl, same⟩⟩
      · intro lockOwner middle same
        apply (handleCreateLocked_ensures sound records state connection sessionId).mono
        intro result last outcome after left
        rw [same, ← left] at outcome
        exact ⟨lockOwner, .inr outcome⟩
  | join sessionId roomId =>
      apply withSessionLock_ensures sound
      · intro lockOwner after same
        exact ⟨lockOwner, .inl ⟨rfl, same⟩⟩
      · intro lockOwner middle same
        apply (handleJoinLocked_ensures sound accepts state connection sessionId roomId).mono
        intro result last outcome after left
        rw [same, ← left] at outcome
        exact ⟨lockOwner, .inr outcome⟩
  | leave sessionId roomId participants =>
      exact handleLeave_ensures sound accepts state connection sessionId roomId participants
  | sdp sessionId sdp sdpType =>
      exact handleSdp_ensures sound state connection sessionId sdp sdpType
  | candidate sessionId candidate sdpMid =>
      exact handleCandidate_ensures sound state connection sessionId candidate sdpMid

/-- A connection goes on only if no write to its socket has failed. -/
theorem handleText_ensures (state : State) (connection : ConnectionId) (jwt : Jwt)
    (message : ClientMessage) :
    (handleText state connection jwt message).Ensures exec world fun goesOn after =>
      ∃ result,
        Outcome state connection accepting regular world.roster message result after.roster ∧
        (goesOn = true → result ≠ .error .writeFailed) := by
  apply (handleClientMessage_ensures sound accepts records state connection jwt message).bind
  intro result handled outcome
  split
  · exact ensures_ret.mpr ⟨_, outcome, fun _ => nofun⟩
  · exact ensures_ret.mpr ⟨_, outcome, nofun⟩
  · rename_i error other
    have reported : (issue (.sendMessage connection (.error (mapError error).1
        (mapError error).2))).Ensures exec handled fun _ after => after.roster = handled.roster :=
      ensures_silent sound ⟨trivial, fun _ => trivial⟩
    apply reported.mono
    intro _ after same
    rw [← same] at outcome
    exact ⟨_, outcome, fun _ equal => other (Except.error.inj equal)⟩

omit records

/-! ## The end of a connection -/

/-- What the cleanup of a connection has done when it ends. -/
inductive CleanupOutcome (state : State) (connection : ConnectionId) (accepting : Accepting)
    (before : Roster) : Roster → Prop
  | unattached : before.attached connection = none →
      CleanupOutcome state connection accepting before before
  | outside {sessionId : SessionId} : before.attached connection = some sessionId →
      (∀ session ∈ before.recalled state.node sessionId, session.roomId = none) →
      CleanupOutcome state connection accepting before
        (before.withSessions state.node (·.remove sessionId))
  | inside {sessionId : SessionId} {session : SessionState} {roomId : RoomId}
      {victims : List Nickname} : before.attached connection = some sessionId →
      before.recalled state.node sessionId = some session → session.roomId = some roomId →
      Refusing accepting state.node roomId before victims →
      CleanupOutcome state connection accepting before
        ((before.leave state.node sessionId roomId session.nickname victims).withSessions
          state.node (·.remove sessionId))

omit accepts in
/-- The session of an ended connection is the one that the node knows, else that of the store.
-/
theorem sessionForCleanup_leaves (state : State) (sessionId : SessionId) :
    (sessionForCleanup state sessionId).Ensures exec world
      (Leaves (world.roster.recalled state.node sessionId) world.roster) := by
  apply leaves_bind (getSession_leaves sound state sessionId)
  intro middle same
  unfold Roster.recalled
  cases world.roster.known state.node sessionId with
  | some session => exact ensures_ret.mpr ⟨rfl, same⟩
  | none =>
      apply leaves_bind (sessionGet_leaves sound sessionId)
      rw [same]
      intro after left
      exact ensures_ret.mpr ⟨rfl, left⟩

omit accepts in
/-- The end of a cleanup. -/
theorem uncountOnDisconnect_silent (state : State) (context : ConnectionContext) :
    (uncountOnDisconnect state context).Ensures exec world fun _ after =>
      after.roster = world.roster := by
  unfold uncountOnDisconnect
  split
  · apply leaves_bind (decrementInstanceLoad_leaves sound _)
    intro after left
    exact ensures_ret.mpr left
  · exact ensures_ret.mpr rfl

/-- A connection that ends in a room leaves it, like a participant who asks to. -/
theorem leaveOnDisconnect_ensures (state : State) (sessionId : SessionId) (nickname : Nickname)
    (roomId : RoomId) :
    (leaveOnDisconnect state sessionId nickname (some roomId)).Ensures exec world fun _ after =>
      ∃ victims, Refusing accepting state.node roomId world.roster victims ∧
        after.roster = world.roster.leave state.node sessionId roomId nickname victims := by
  apply (leaveRoomAndNotify_ensures sound accepts state roomId nickname _).bind
  rintro _ left ⟨victims, refusing, same⟩
  apply leaves_bind (hset_leaves sound sessionId "room_id" "")
  rw [same]
  intro cleared same
  apply (setSessionRoom_leaves sound state sessionId none).mono
  rintro _ after ⟨-, last⟩
  rw [last, same]
  exact ⟨victims, refusing, rfl⟩

/-- What the end of a connection does to the roster. -/
theorem cleanupConnection_ensures (state : State) (connection : ConnectionId) :
    (cleanupConnection state connection).Ensures exec world fun _ after =>
      CleanupOutcome state connection accepting world.roster after.roster := by
  apply leaves_bind (setContext_keeps sound fun _ => by rfl)
  intro middle same
  apply (getContext_ensures sound connection).bind
  rw [same]
  rintro context middle ⟨own, same⟩
  cases attached : context.sessionId with
  | none =>
      apply ensures_ret.mpr
      rw [same]
      exact .unattached (own.symm.trans attached)
  | some sessionId =>
      have attached := own.symm.trans attached
      apply leaves_bind (isRedisAvailable_leaves sound)
      rw [same]
      intro middle same
      apply leaves_bind (sessionForCleanup_leaves sound state sessionId)
      rw [same]
      intro middle same
      cases recalled : world.roster.recalled state.node sessionId with
      | none =>
          apply (removeSession_leaves sound state sessionId).mono
          rintro _ after ⟨-, left⟩
          rw [left, same]
          refine .outside attached fun session found => ?_
          rw [recalled] at found
          cases found
      | some session =>
          have finish (left : World) :
              (do
                uncountOnDisconnect state context
                state.removeSession sessionId : Call Unit).Ensures exec left fun _ after =>
                  after.roster = left.roster.withSessions state.node (·.remove sessionId) := by
            apply (uncountOnDisconnect_silent sound state context).bind
            intro _ uncounted same
            rw [← same]
            apply (removeSession_leaves sound state sessionId).mono
            rintro _ after ⟨-, last⟩
            exact last
          cases room : session.roomId with
          | none =>
              have stays : (leaveOnDisconnect state sessionId session.nickname
                  none).Ensures exec middle fun _ after => after.roster = middle.roster :=
                ensures_ret.mpr rfl
              change (leaveOnDisconnect state sessionId session.nickname session.roomId >>=
                fun _ => _).Ensures exec middle _
              rw [room]
              apply stays.bind
              intro _ left same'
              apply (finish left).mono
              intro _ after last
              rw [last, same', same]
              refine .outside attached fun other found => ?_
              rw [recalled] at found
              exact Option.some.inj found ▸ room
          | some roomId =>
              change (leaveOnDisconnect state sessionId session.nickname session.roomId >>=
                fun _ => _).Ensures exec middle _
              rw [room]
              apply (leaveOnDisconnect_ensures sound accepts state sessionId session.nickname
                roomId).bind
              rintro _ left ⟨victims, refusing, same'⟩
              apply (finish left).mono
              intro _ after last
              rw [last, same', same]
              rw [same] at refusing
              exact .inside attached recalled room refusing

end Handlers

end Callifornia.Signaling
