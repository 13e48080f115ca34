import Callifornia.Deployment.Tasks
import Callifornia.Signaling.Handlers
import Callifornia.Supervisor.Footprint

/-! # What the tasks of the deployment consist of

Apart from the steps that touch neither bindings nor the pool of SFUs nor the peers of a room,
the tasks release slots, bind rooms under ids they have just drawn, write what they know of an
SFU, and handle the peers of a room where they know it is placed. A contract that allows these
and admits these few parts admits every task.
-/

namespace Callifornia.Deployment

open Concurrency Concurrency.Program Store Signaling

/-- The step writes neither a binding nor the load or the record of an SFU; it may remove a
binding. -/
def Spares : Op → Prop
  | .redis (.hset (.binding _) _ _) | .redis (.assignRoomToSfu ..)
  | .redis (.hsetInstance ..) | .redis (.zadd .roomLoad _ _) | .redis (.zincr .roomLoad _ _)
  | .redis (.zrem .roomLoad _) | .redis (.zremrangeByScore .roomLoad _) => False
  | _ => True

/-- Moreover it calls no SFU about a room, adds no member to one and registers no peer. -/
def Harmless : Op → Prop
  | .createPeer .. | .deletePeer .. | .handleSdp .. | .addIceCandidate ..
  | .redis (.sadd ..) | .peers _ (.register ..) => False
  | op => Spares op

/-- A harmless step writes neither a binding nor the pool. -/
theorem spares_of_harmless {op : Op} (harmless : Harmless op) : Spares op := by
  cases op with
  | redis command =>
      cases command with
      | sadd => exact trivial
      | _ => exact harmless
  | _ => exact trivial

/-- The step calls the SFU of a room, registers a peer of it or adds a member to it, and the task
knows where the room is placed. -/
def Knowledge.Directs (known : Knowledge) : Op → Prop
  | .createPeer sfuAddr roomId _ node => known.Learned roomId ⟨node, some sfuAddr⟩
  | .deletePeer sfuAddr roomId _ _ | .handleSdp sfuAddr roomId _ _ _
  | .addIceCandidate sfuAddr roomId _ _ _ =>
      ∃ owner, known.Learned roomId ⟨owner, some sfuAddr⟩
  | .peers node (.register roomId _ entry) => known.Learned roomId ⟨node, entry.sfuAddr⟩
  | .redis (.sadd roomId _) => ∃ placement, known.Learned roomId placement
  | _ => False

variable {restriction : Restriction} {contract : Contract (deployment restriction)}
    {keeps : Knowledge → Prop}
  {known : Knowledge} {roomId : RoomId} {placement : Placement}

/-- What a task knows of placements it does not forget. -/
theorem stable_learned :
    Contract.Stable (deployment restriction) fun known => known.Learned roomId placement :=
  fun _ _ _ learned => learned_advance.mpr (.inr learned)

/-- A task does not forget at which SFU it knows a room. -/
theorem stable_directed {sfuAddr : Address} : Contract.Stable (deployment restriction) fun known =>
    ∃ owner, known.Learned roomId ⟨owner, some sfuAddr⟩ :=
  fun known op reply ⟨owner, learned⟩ => ⟨owner, stable_learned known op reply learned⟩

/-- The room is known to be placed at the node and on the SFU. -/
def Placed (keeps : Knowledge → Prop) (state : State) (roomId : RoomId) (sfuAddr : Address) :
    Prop :=
  ∀ known, keeps known → known.Learned roomId ⟨state.node, some sfuAddr⟩

/-- The contract allows the harmless steps, those that a known placement directs, and the release
of a slot; `keeps` goes on to hold of what a task knows. -/
structure Tolerates (contract : Contract (deployment restriction)) (keeps : Knowledge → Prop) :
    Prop where
  stable : Contract.Stable (deployment restriction) keeps
  steps : ∀ op, Harmless op → ∀ known, keeps known → contract.allowed known op
  directs : ∀ known, keeps known → ∀ op, known.Directs op → contract.allowed known op
  slots : ∀ {also : Knowledge → Prop}, Contract.Stable (deployment restriction) also → ∀ instanceId,
    contract.Admits also (decrementSfuRoomLoad instanceId).run
  supervisorSlots : ∀ {also : Knowledge → Prop}, Contract.Stable (deployment restriction) also →
    ∀ instanceId, contract.Admits also (Supervisor.decrementSfuRoomLoad instanceId).run

/-- A node with this configuration may bind a room whose id it has just drawn. -/
def AdmitsBinding (contract : Contract (deployment restriction)) (keeps : Knowledge → Prop)
    (config : Signaling.Config) : Prop :=
  ∀ roomId clock known, keeps known → contract.allowed
    (advance (advance known .newUuid roomId) .unixNow clock)
    (.redis (.assignRoomToSfu roomId config.signalingPublicHost
      (toString config.signalingPublicPort.toNat) config.publicNodeId clock 30))

/-- An error that is only logged changes nothing. -/
theorem logged_admits {call : Supervisor.StoreCall Unit}
    (admits : contract.Admits keeps call.run) : contract.Admits keeps (Supervisor.logged call) :=
  admits.bind fun _ => Contract.Admits.ret _

namespace Tolerates

variable (tolerates : Tolerates contract keeps) {state : State} {connection : ConnectionId}
  {sessionId : SessionId} {nickname : Nickname} {α : Type}

include tolerates

/-! ## Parts -/

/-- What the task has learned may be used. -/
theorem and {also : Knowledge → Prop} (stable : Contract.Stable (deployment restriction) also) :
    Tolerates contract fun known => keeps known ∧ also known where
  stable := tolerates.stable.and stable
  steps op harmless known both := tolerates.steps op harmless known both.1
  directs known both := tolerates.directs known both.1
  slots := tolerates.slots
  supervisorSlots := tolerates.supervisorSlots

/-- A program of harmless steps is admitted. -/
theorem only {program : Call α} (only : program.Only Harmless) : contract.Admits keeps program :=
  Contract.admits_of_only tolerates.stable (only.mono tolerates.steps)

/-- A harmless step is admitted. -/
theorem step {op : Op} (harmless : Harmless op) : contract.Admits keeps (issue op) :=
  tolerates.only (issue_only harmless)

/-- A harmless command is admitted, also when it fails. -/
theorem redisCommand {ε : Type} {onFailure : RedisFailure → ε} {command : Command}
    (harmless : Harmless (.redis command)) :
    contract.Admits keeps (redisCommand onFailure command).run :=
  tolerates.only (redisCommand_only harmless)

/-- The binding is removed first, and the slot is released only if it was there. -/
theorem closeRoomBinding : contract.Admits keeps (closeRoomBinding roomId).run := by
  refine (tolerates.redisCommand (by trivial)).except_bind fun instanceId => ?_
  refine (tolerates.redisCommand (by trivial)).except_bind fun deleted => ?_
  split
  · exact Contract.Admits.ret _
  · exact (tolerates.slots tolerates.stable _).except_bind fun _ => Contract.Admits.ret _

/-- An announcement calls no SFU. -/
theorem broadcastToRoom {exceptNickname : Option Nickname} {payload : ServerMessage} :
    contract.Admits keeps (state.broadcastToRoom roomId exceptNickname payload) :=
  tolerates.only (State.broadcastToRoom_only trivial fun _ => trivial)

/-- A check of Redis is harmless. -/
theorem requireRedis : contract.Admits keeps requireRedis.run :=
  tolerates.only (requireRedis_only trivial)

/-- The check of a session is harmless. -/
theorem checkSession : contract.Admits keeps (checkSession state connection sessionId).run :=
  tolerates.only (checkSession_only trivial trivial trivial (fun _ _ => trivial) fun _ => trivial)

/-- The route that is read is learned. -/
theorem getRoomRoute : contract.Teaches keeps (fun route known => known.Learned roomId
    (placementOf route)) (getRoomRoute roomId) := by
  intro (known : Knowledge) holds
  refine ⟨tolerates.steps _ (by trivial) known holds, fun reply _ => ?_⟩
  have kept := tolerates.stable known (.redis (.hgetall (.binding roomId))) reply holds
  cases reply with
  | error failure => exact ⟨kept, fun route same => by cases same⟩
  | ok values =>
      exact ⟨kept, fun route read => learned_read known read⟩

/-- What is left of a detach once the SFU of the room is known. -/
theorem detachKnown {reason : String} {route : Option Address} (deletes : ∀ sfuAddr ∈ route,
    ∀ known, keeps known → contract.allowed known (.deletePeer sfuAddr roomId nickname reason)) :
    contract.Admits keeps (do
      state.unregister roomId nickname
      let roomEmpty ← State.detachMember roomId nickname
      State.detachFromSfu roomId nickname reason route
      State.closeIfEmpty roomId roomEmpty) := by
  refine (tolerates.step (by trivial)).bind fun _ => ?_
  refine Contract.Admits.bind (tolerates.only
    (State.detachMember_only trivial trivial trivial trivial trivial)) fun roomEmpty => ?_
  have removes : contract.Admits keeps (State.detachFromSfu roomId nickname reason route) := by
    cases route with
    | none => exact Contract.Admits.ret _
    | some sfuAddr =>
        exact (Contract.Admits.perform tolerates.stable (deletes sfuAddr rfl)).bind fun _ =>
          Contract.Admits.ret _
  refine removes.bind fun _ => ?_
  cases roomEmpty with
  | false => exact Contract.Admits.ret _
  | true => exact tolerates.closeRoomBinding.bind fun _ => Contract.Admits.ret _

/-- The route that is known before a detach is learned. -/
theorem routeBeforeDetach {known : Knowledge} (holds : keeps known) :
    contract.Meets (fun last route => keeps last ∧ ∀ found ∈ route, last.Learned roomId
      (placementOf found)) known (State.routeBeforeDetach roomId) := by
  refine Contract.Meets.bind ((tolerates.only (State.isRedisAvailable_only trivial) known
    holds).mono fun last up holds => ?_)
  cases up with
  | false => exact ⟨holds, fun found none => by cases none⟩
  | true =>
      refine Contract.Meets.bind ((tolerates.getRoomRoute last holds).mono ?_)
      intro last result learned
      refine ⟨learned.1, fun found read => learned.2 found ?_⟩
      cases result with
      | error error => cases read
      | ok route => exact congrArg _ (Option.some.inj read)

/-- A peer is detached at the SFU that the room's route names. -/
theorem detachPeer {reason : String} :
    contract.Admits keeps (state.detachPeer roomId nickname reason) := by
  intro known holds
  refine Contract.Meets.bind ((tolerates.routeBeforeDetach holds).mono ?_)
  intro last route learned
  cases route with
  | none => exact tolerates.detachKnown (fun sfuAddr named => by cases named) last learned.1
  | some route =>
      have learns := tolerates.and (@stable_learned restriction roomId (placementOf route))
      refine (learns.detachKnown (fun sfuAddr named known both => ?_) last
        ⟨learned.1, learned.2 route rfl⟩).mono fun _ _ both => both.1
      refine tolerates.directs known both.1 _ ⟨(placementOf route).owner, ?_⟩
      rw [← show route.sfuGrpcAddr = some sfuAddr from named]
      exact both.2

/-- Stale peers are detached one after the other, each at the room's SFU. -/
theorem detachStalePeers {reason : String} (bound : ℕ) (staleNicknames : List Nickname) :
    contract.Admits keeps (detachStalePeers state roomId reason bound staleNicknames) := by
  induction bound generalizing staleNicknames with
  | zero =>
      unfold Signaling.detachStalePeers
      cases staleNicknames.getLast? with
      | none => exact Contract.Admits.ret _
      | some nickname => exact tolerates.only ⟨trivial, fun reply => reply.elim⟩
  | succ bound ih =>
      unfold Signaling.detachStalePeers
      cases staleNicknames.getLast? with
      | none => exact Contract.Admits.ret _
      | some nickname =>
          refine tolerates.broadcastToRoom.bind fun moreStale => ?_
          exact tolerates.detachPeer.bind fun _ => ih _

/-- An announcement detaches those whose channel refuses it. -/
theorem announce {message : ServerMessage} :
    contract.Admits keeps (announce state roomId nickname message) :=
  tolerates.broadcastToRoom.bind fun stale => tolerates.detachStalePeers _ stale

/-- The peer is detached before its leaving is announced. -/
theorem leaveRoomAndNotify {reason : String} :
    contract.Admits keeps (leaveRoomAndNotify state roomId nickname reason) :=
  tolerates.detachPeer.bind fun _ => tolerates.announce

/-- A participant leaves one room, which the session then forgets. -/
theorem leaveRoomOf {participants : Option (List String)} {reason : String} :
    contract.Admits keeps
      (leaveRoomOf state connection sessionId roomId nickname participants reason).run := by
  refine tolerates.requireRedis.except_bind fun _ => ?_
  refine tolerates.leaveRoomAndNotify.lift.except_bind fun _ => ?_
  refine (tolerates.redisCommand (by trivial)).adapt.except_bind fun _ => ?_
  refine (tolerates.step (by trivial)).lift.except_bind fun _ => ?_
  exact (tolerates.step (by trivial)).lift

/-- The session's room is written to its hash, not to the room's keys. -/
theorem recordRoom : contract.Admits keeps (recordRoom state connection sessionId roomId).run := by
  refine (tolerates.redisCommand (by trivial)).adapt.except_bind fun _ => ?_
  refine (tolerates.step (by trivial)).lift.except_bind fun _ => ?_
  exact (tolerates.step (by trivial)).lift

/-- An answer to the client is harmless. -/
theorem sendMessage {message : ServerMessage} :
    contract.Admits keeps (sendMessage connection message).run := by
  refine (tolerates.step (by trivial)).lift.except_bind fun sent => ?_
  cases sent <;> exact Contract.Admits.ret _

/-- A member is added to a room of which it is known that it was placed. -/
theorem joinRoom (placed : ∀ known, keeps known → ∃ placement, known.Learned roomId placement) :
    contract.Admits keeps (joinRoom roomId nickname).run := by
  refine (tolerates.redisCommand (by trivial)).except_bind fun bound => ?_
  cases bound with
  | false => exact Contract.Admits.ret _
  | true =>
      refine (tolerates.redisCommand (by trivial)).except_bind fun alreadyTaken => ?_
      cases alreadyTaken with
      | true => exact Contract.Admits.ret _
      | false =>
          refine Contract.Admits.except_bind (Contract.Admits.bind
            (Contract.Admits.perform tolerates.stable fun known holds =>
              tolerates.directs known holds
              (.redis (.sadd roomId nickname)) (placed known holds)) fun _ =>
                Contract.Admits.ret _) fun _ => ?_
          exact (tolerates.redisCommand (by trivial)).except_bind fun _ => Contract.Admits.ret _

/-- Undoing a join takes a member out, which no placement is needed for. -/
theorem undoJoin : contract.Admits keeps (undoJoin roomId nickname) :=
  tolerates.only (Only.bind (redisCommand_drop_only (by trivial)) fun _ => trivial)

/-- Undoing a create releases the slot of the room that was bound. -/
theorem undoBinding : contract.Admits keeps (undoBinding roomId) :=
  tolerates.closeRoomBinding.bind fun _ => Contract.Admits.ret _

/-- A peer is created only where the task knows the room is placed. -/
theorem ensurePeer {sfuAddr : Address} (placed : Placed keeps state roomId sfuAddr) :
    contract.Admits keeps (state.ensurePeer sfuAddr roomId nickname) :=
  (Contract.Admits.perform tolerates.stable fun known holds =>
    tolerates.directs known holds (.createPeer sfuAddr roomId nickname state.node)
      (placed known holds)).bind fun _ => Contract.Admits.ret _

/-- A peer is registered only at the node where the task knows the room is placed. -/
theorem register {sfuAddr : Address} (placed : Placed keeps state roomId sfuAddr) :
    contract.Admits keeps (state.register roomId nickname ⟨connection, some sfuAddr⟩) :=
  Contract.Admits.perform tolerates.stable fun known holds => tolerates.directs known holds
    (.peers state.node (.register roomId nickname ⟨connection, some sfuAddr⟩)) (placed known holds)

/-! ## The messages of a client -/

/-- A node joins peers to its own rooms only. -/
theorem joinTarget : contract.Teaches keeps (fun sfuAddr known => known.Learned roomId
    ⟨state.node, some sfuAddr⟩) (joinTarget state roomId) := by
  refine Contract.Teaches.teaches tolerates.getRoomRoute.adapt fun route => ?_
  split
  · exact Contract.Teaches.error _
  · rename_i foreign
    split
    · exact Contract.Teaches.error _
    · cases addressed : route.sfuGrpcAddr with
      | none => exact Contract.Teaches.error _
      | some sfuAddr =>
          refine Contract.Teaches.ret fun known both => ?_
          have owned : placementOf route = ⟨state.node, some sfuAddr⟩ := by
            have own : isLocalTarget state route = true := by simpa using foreign
            obtain ⟨host, port⟩ := of_decide_eq_true own
            rw [placementOf, host, port, addressed]
            rfl
          exact owned ▸ both.2

/-- A participant enters where the route that was read places the room. -/
theorem enterRoom {sfuAddr : Address} (placed : Placed keeps state roomId sfuAddr) :
    contract.Admits keeps (enterRoom state sfuAddr roomId nickname).run := by
  refine Contract.Admits.except_bind
    (tolerates.joinRoom fun known holds => ⟨_, placed known holds⟩).adapt fun participants => ?_
  refine (tolerates.ensurePeer placed).lift.except_bind fun created => ?_
  cases created with
  | ok => exact Contract.Admits.ret _
  | error error => exact tolerates.undoJoin.lift.except_bind fun _ => Contract.Admits.ret _

/-- A join reads the route before it enters the room. -/
theorem handleJoinLocked :
    contract.Admits keeps (handleJoinLocked state connection sessionId roomId).run := by
  have admission : contract.Admits keeps (admitJoin state connection sessionId roomId).run :=
    tolerates.only (admitJoin_only trivial
      (checkSession_only trivial trivial trivial (fun _ _ => trivial) fun _ => trivial))
  refine admission.except_bind fun session => ?_
  refine Contract.Teaches.bind tolerates.joinTarget fun sfuAddr => ?_
  have knows := tolerates.and (@stable_learned restriction roomId ⟨state.node, some sfuAddr⟩)
  refine (knows.enterRoom fun _ both => both.2).except_bind fun participants => ?_
  refine knows.recordRoom.except_bind fun _ => ?_
  refine knows.sendMessage.except_bind fun _ => ?_
  refine (knows.register fun _ both => both.2).lift.except_bind fun _ => ?_
  exact knows.announce.lift

/-- A room is opened at the node and the SFU of the assignment. -/
theorem openRoom {sfuAddr : Address} (placed : Placed keeps state roomId sfuAddr) :
    contract.Admits keeps (openRoom state sfuAddr roomId nickname).run := by
  refine Contract.Admits.except_bind
    (tolerates.joinRoom fun known holds => ⟨_, placed known holds⟩).lift fun joined => ?_
  cases joined with
  | error error => exact tolerates.undoBinding.lift.except_bind fun _ => Contract.Admits.ret _
  | ok participants =>
      refine (tolerates.ensurePeer placed).lift.except_bind fun created => ?_
      cases created with
      | ok => exact Contract.Admits.ret _
      | error error =>
          refine tolerates.undoJoin.lift.except_bind fun _ => ?_
          exact tolerates.undoBinding.lift.except_bind fun _ => Contract.Admits.ret _

/-- A create binds the room whose id it has just drawn. -/
theorem handleCreateLocked (binds : AdmitsBinding contract keeps state.config) :
    contract.Admits keeps (handleCreateLocked state connection sessionId).run := by
  have admission : contract.Admits keeps (admitCreate state connection sessionId).run := by
    refine tolerates.checkSession.except_bind fun session => ?_
    split
    · exact Contract.Admits.ret _
    · refine (tolerates.step (by trivial)).lift.except_bind fun context => ?_
      split <;> exact Contract.Admits.ret _
  rw [handleCreateLocked_eq]
  refine admission.except_bind fun session known holds => ?_
  have drawn := tolerates.stable known .newUuid
  refine ⟨tolerates.steps .newUuid trivial known holds, fun roomId _ => ?_⟩
  refine ⟨tolerates.steps .unixNow trivial _ (drawn roomId holds), fun clock _ => ?_⟩
  refine ⟨binds roomId clock known holds, fun reply _ => ?_⟩
  have kept := tolerates.stable _ (.redis (.assignRoomToSfu roomId
    state.config.signalingPublicHost (toString state.config.signalingPublicPort.toNat)
    state.config.publicNodeId clock 30)) reply
      (tolerates.stable _ .unixNow clock (drawn roomId holds))
  cases reply with
  | error failure => exact kept
  | ok names =>
      have enters (assignment : SfuAssignment) : contract.Admits
          (fun known => keeps known ∧
            known.Learned roomId ⟨state.node, some assignment.sfuGrpcAddr⟩)
          (enterCreated state connection sessionId session.nickname roomId assignment).run := by
        have knows := tolerates.and (@stable_learned restriction roomId
          ⟨state.node, some assignment.sfuGrpcAddr⟩)
        refine (knows.openRoom fun _ both => both.2).except_bind fun _ => ?_
        refine knows.recordRoom.except_bind fun _ => ?_
        refine knows.sendMessage.except_bind fun _ => ?_
        exact (knows.register fun _ both => both.2).lift
      change contract.Meets _ _ (ExceptT.bindCont (enterCreated state connection sessionId
        session.nickname roomId) ((SfuAssignment.ofReply names).mapError mapRedisError))
      cases made : SfuAssignment.ofReply names with
      | error error => exact kept
      | ok assignment =>
          refine (enters assignment _ ⟨kept, ?_⟩).mono fun _ _ both => both.1
          exact learned_assigned _ roomId state.config.signalingPublicHost
            (toString state.config.signalingPublicPort.toNat) state.config.publicNodeId clock 30
            made

/-- An attach handles no room. -/
theorem handleAttach {jwt : Jwt} {token : String} :
    contract.Admits keeps (handleAttach state connection jwt token).run := by
  refine (tolerates.step (by trivial)).lift.except_bind fun context => ?_
  split
  · exact Contract.Admits.ret _
  · refine tolerates.requireRedis.except_bind fun _ => ?_
    refine Contract.Admits.except_bind
      (tolerates.only (admitToken_only trivial fun _ _ => trivial)) fun claims => ?_
    refine Contract.Admits.except_bind
      (tolerates.only (sessionGet_only trivial)).adapt fun found => ?_
    split
    · exact Contract.Admits.ret _
    · refine (tolerates.redisCommand (by trivial)).adapt.except_bind fun _ => ?_
      refine (tolerates.step (by trivial)).lift.except_bind fun _ => ?_
      refine (tolerates.redisCommand (by trivial)).adapt.except_bind fun _ => ?_
      refine (tolerates.step (by trivial)).lift.except_bind fun _ => ?_
      refine (tolerates.step (by trivial)).lift.except_bind fun _ => ?_
      exact tolerates.sendMessage

/-- The count of a node's connections is not the load of an SFU. -/
theorem decrementInstanceLoad {nodeId : NodeId} :
    contract.Admits keeps (decrementInstanceLoad nodeId).run :=
  (tolerates.redisCommand (by trivial)).except_bind fun _ =>
    tolerates.redisCommand (by trivial)

/-- A logout gives up the nickname and the session, and no room. -/
theorem logoutRedis : contract.Admits keeps
    (logoutRedis state connection sessionId nickname).run := by
  refine Contract.Admits.except_bind
    (tolerates.only (State.isRedisAvailable_only trivial)).lift fun up => ?_
  cases up with
  | false => exact Contract.Admits.ret _
  | true =>
      refine (tolerates.step (by trivial)).lift.except_bind fun context => ?_
      have uncounts : contract.Admits keeps (uncountConnection state connection context).run := by
        unfold uncountConnection
        split
        · refine tolerates.decrementInstanceLoad.adapt.except_bind fun _ => ?_
          exact (tolerates.step (by trivial)).lift
        · exact Contract.Admits.ret _
      refine uncounts.except_bind fun _ => ?_
      refine Contract.Admits.except_bind
        (tolerates.only (redisCommand_drop_only (by trivial))).adapt fun _ => ?_
      exact (tolerates.only (redisCommand_drop_only (by trivial))).adapt

/-- A logout leaves the session's room first. -/
theorem handleLogout {participants : Option (List String)} :
    contract.Admits keeps (handleLogout state connection sessionId participants).run := by
  refine tolerates.checkSession.except_bind fun session => ?_
  have leaves : contract.Admits keeps (leaveOnLogout state connection sessionId session.nickname
      participants session.roomId).run := by
    cases session.roomId with
    | none => exact Contract.Admits.ret _
    | some roomId => exact @leaveRoomOf _ _ _ _ tolerates _ _ _ _ participants _
  refine leaves.except_bind fun _ => ?_
  refine tolerates.logoutRedis.except_bind fun _ => ?_
  refine (tolerates.step (by trivial)).lift.except_bind fun _ => ?_
  refine (tolerates.step (by trivial)).lift.except_bind fun _ => ?_
  exact tolerates.sendMessage

/-- A leave handles the one room of the session. -/
theorem handleLeave {participants : Option (List String)} :
    contract.Admits keeps (handleLeave state connection sessionId roomId participants).run := by
  refine tolerates.checkSession.except_bind fun session => ?_
  cases session.roomId with
  | none => exact Contract.Admits.ret _
  | some currentRoom =>
      dsimp only
      split
      · exact Contract.Admits.ret _
      · exact tolerates.leaveRoomOf.except_bind fun _ => tolerates.sendMessage

/-- Media is negotiated with the SFU on which the room is placed. -/
theorem mediaTarget : contract.Teaches keeps (fun target known => ∃ owner,
    known.Learned target.2.1 ⟨owner, some target.2.2⟩)
      (mediaTarget state connection sessionId) := by
  refine Contract.Admits.teaches tolerates.checkSession fun session => ?_
  cases session.roomId with
  | none => exact Contract.Teaches.error _
  | some roomId =>
      refine Contract.Teaches.teaches tolerates.getRoomRoute.adapt fun route => ?_
      cases addressed : route.sfuGrpcAddr with
      | none => exact Contract.Teaches.error _
      | some sfuAddr =>
          refine Contract.Teaches.ret fun known both => ⟨(placementOf route).owner, ?_⟩
          rw [← addressed]
          exact both.2

/-- An SDP goes to the SFU of the route that was read. -/
theorem handleSdp {sdp sdpType : String} :
    contract.Admits keeps (handleSdp state connection sessionId sdp sdpType).run := by
  refine Contract.Teaches.bind tolerates.mediaTarget fun target => ?_
  have knows := tolerates.and (@stable_directed restriction target.2.1 target.2.2)
  refine (Contract.Admits.perform knows.stable fun known both => knows.directs known both
    (.handleSdp target.2.2 target.2.1 target.1.nickname sdp sdpType) both.2).lift.except_bind
      fun response => ?_
  cases response with
  | error error => exact Contract.Admits.ret _
  | ok response =>
      dsimp only
      cases State.ensureSuccess ⟨response.success, response.errorMessage⟩ "SFU rejected SDP" with
      | error error => exact Contract.Admits.ret _
      | ok => exact knows.sendMessage

/-- A candidate goes to the SFU of the route that was read. -/
theorem handleCandidate {candidate sdpMid : String} :
    contract.Admits keeps (handleCandidate state connection sessionId candidate sdpMid).run := by
  refine Contract.Teaches.bind tolerates.mediaTarget fun target => ?_
  have knows := tolerates.and (@stable_directed restriction target.2.1 target.2.2)
  refine (Contract.Admits.perform knows.stable fun known both => knows.directs known both
    (.addIceCandidate target.2.2 target.2.1 target.1.nickname candidate sdpMid)
      both.2).lift.except_bind fun response => ?_
  cases response with
  | error error => exact Contract.Admits.ret _
  | ok response =>
      dsimp only
      cases State.ensureSuccess response "SFU rejected ICE candidate" <;>
      exact Contract.Admits.ret _

/-- The lock of a session is no key of a room. -/
theorem withSessionLock {handler : WsCall Unit} (handles : contract.Admits keeps handler.run) :
    contract.Admits keeps (withSessionLock state sessionId handler).run := by
  refine tolerates.requireRedis.except_bind fun _ => ?_
  refine (tolerates.step (by trivial)).lift.except_bind fun lockOwner => ?_
  refine (tolerates.redisCommand (by trivial)).adapt.except_bind fun acquired => ?_
  cases acquired with
  | false => exact Contract.Admits.ret _
  | true =>
      refine handles.bind fun result => ?_
      exact Contract.Admits.bind (tolerates.only (redisCommand_drop_only (by trivial))) fun _ =>
        Contract.Admits.ret _

/-- Every message is handled within the contract if a create is. -/
theorem handleClientMessage (binds : AdmitsBinding contract keeps state.config) {jwt : Jwt}
    (message : ClientMessage) :
    contract.Admits keeps (handleClientMessage state connection jwt message).run := by
  cases message with
  | attach => exact tolerates.handleAttach
  | logout => exact tolerates.handleLogout
  | sdp => exact tolerates.handleSdp
  | candidate => exact tolerates.handleCandidate
  | create => exact tolerates.withSessionLock (tolerates.handleCreateLocked binds)
  | join => exact tolerates.withSessionLock tolerates.handleJoinLocked
  | leave => exact tolerates.handleLeave

/-! ## A connection -/

/-- Every event of a connection is handled within the contract. -/
theorem handleEvent (binds : AdmitsBinding contract keeps state.config) {codec : Codec} {jwt : Jwt}
    (event : Event) :
    contract.Admits keeps (handleEvent codec state connection jwt event) := by
  have texts (text : String) :
      contract.Admits keeps (handleTextFrame codec state connection jwt text) := by
    unfold handleTextFrame
    split
    · exact tolerates.step trivial
    · split
      · exact tolerates.step trivial
      · refine (tolerates.handleClientMessage binds _).bind fun result => ?_
        split
        · exact Contract.Admits.ret _
        · exact Contract.Admits.ret _
        · exact tolerates.step trivial
  cases event with
  | heartbeat => exact Contract.Admits.ret _
  | outbound payload =>
      cases payload with
      | none => exact Contract.Admits.ret _
      | some payload => exact tolerates.step trivial
  | incoming incoming =>
      cases incoming with
      | elapsed | ended | failed => exact Contract.Admits.ret _
      | frame frame =>
          cases frame with
          | text text => exact texts text
          | binary | ping | pong | close => exact Contract.Admits.ret _

/-- At its end a connection leaves the room of its session. -/
theorem cleanupConnection : contract.Admits keeps (cleanupConnection state connection) := by
  refine (tolerates.step (by trivial)).bind fun _ => ?_
  refine (tolerates.step (by trivial)).bind fun context => ?_
  cases context.sessionId with
  | none => exact Contract.Admits.ret _
  | some sessionId =>
      have remove : contract.Admits keeps (state.removeSession sessionId) := tolerates.step trivial
      refine Contract.Admits.bind (tolerates.only (State.isRedisAvailable_only trivial)) ?_
      intro up
      cases up with
      | false => exact remove
      | true =>
          refine Contract.Admits.bind
            (tolerates.only (sessionForCleanup_only trivial trivial)) fun found => ?_
          cases found with
          | none => exact remove
          | some session =>
              have leaves : contract.Admits keeps
                (leaveOnDisconnect state sessionId session.nickname
                  session.roomId) := by
                cases session.roomId with
                | none => exact Contract.Admits.ret _
                | some roomId =>
                    refine tolerates.leaveRoomAndNotify.bind fun _ => ?_
                    refine (tolerates.redisCommand (by trivial)).bind fun _ => ?_
                    exact tolerates.step trivial
              have uncounts : contract.Admits keeps (uncountOnDisconnect state context) := by
                unfold uncountOnDisconnect
                split
                · exact tolerates.decrementInstanceLoad.bind fun _ => Contract.Admits.ret _
                · exact Contract.Admits.ret _
              exact leaves.bind fun _ => uncounts.bind fun _ => remove

/-- The task of a connection keeps to the contract. -/
theorem handleWs (binds : AdmitsBinding contract keeps state.config) {codec : Codec} {jwt : Jwt}
    (events : List Event) :
    contract.Admits keeps (handleWs codec state connection jwt events) := by
  induction events with
  | nil => exact Contract.Admits.ret _
  | cons event events ih =>
      refine (tolerates.handleEvent binds event).bind fun goesOn => ?_
      cases goesOn with
      | false => exact tolerates.cleanupConnection
      | true => exact ih

/-! ## SFU events and lost SFUs -/

/-- An event that an SFU reports detaches the peers it names. -/
theorem detachEach {staleNicknames : List Nickname} :
    contract.Admits keeps (SfuEvents.detachEach state roomId staleNicknames) :=
  Contract.Admits.forM fun _ _ => tolerates.detachPeer

/-- Every event of an SFU is handled within the contract. -/
theorem handleSfuEvent (event : SfuEvent) : contract.Admits keeps (handleSfuEvent state event) := by
  have sends (payload : ServerMessage) : contract.Admits keeps
      (SfuEvents.sendToPeer state event.roomId event.participantId payload) := by
    have asks : contract.Admits keeps
        (state.sendToPeer event.roomId event.participantId payload) := by
      refine (tolerates.step (by trivial)).bind fun sender => ?_
      cases sender with
      | none => exact Contract.Admits.ret _
      | some sender => exact (tolerates.step (by trivial)).bind fun _ => Contract.Admits.ret _
    unfold SfuEvents.sendToPeer
    split
    · exact Contract.Admits.ret _
    · refine asks.bind fun status => ?_
      cases status with
      | delivered | missing => exact Contract.Admits.ret _
      | stale =>
          refine tolerates.detachPeer.bind fun _ => ?_
          exact tolerates.broadcastToRoom.bind fun _ => tolerates.detachEach
  unfold Signaling.handleSfuEvent
  cases event.detail with
  | none => exact Contract.Admits.ret _
  | some detail =>
      cases detail with
      | peerConnected | trackAdded | trackRemoved => exact Contract.Admits.ret _
      | iceCandidate candidate sdpMid => exact sends _
      | error errorMessage => exact sends _
      | peerDisconnected =>
          dsimp only
          split
          · exact Contract.Admits.ret _
          · exact tolerates.broadcastToRoom.bind fun _ => tolerates.detachEach

/-- A closure detaches the peers of the rooms that the node holds at the address. -/
theorem closeRoomsDueToSfuAddr {sfuAddr : Address} {reason : String} :
    contract.Admits keeps (state.closeRoomsDueToSfuAddr sfuAddr reason) := by
  refine (tolerates.step (by trivial)).bind fun rooms => ?_
  refine Contract.Admits.forM fun room _ => ?_
  refine Contract.Admits.bind (tolerates.only (getRoomRoute_only trivial)) fun route => ?_
  cases route with
  | error error => exact Contract.Admits.ret _
  | ok route =>
      dsimp only
      split
      · refine tolerates.broadcastToRoom.bind fun stale => ?_
        refine Contract.Admits.bind (Contract.Admits.forM fun _ _ => tolerates.step trivial) ?_
        refine fun _ => Contract.Admits.bind
          (Contract.Admits.forM fun _ _ => tolerates.step trivial) fun _ => ?_
        refine (tolerates.step (by trivial)).bind fun affectedSessions => ?_
        refine Contract.Admits.bind (tolerates.only (State.isRedisAvailable_only trivial)) ?_
        intro up
        cases up with
        | false => exact Contract.Admits.ret _
        | true =>
            refine tolerates.closeRoomBinding.bind fun _ => ?_
            refine Contract.Admits.bind (tolerates.only (redisCommand_drop_only (by trivial))) ?_
            refine fun _ => Contract.Admits.forM fun sessionId _ => ?_
            exact (tolerates.redisCommand (by trivial)).bind fun _ => Contract.Admits.ret _
      · exact Contract.Admits.ret _

/-- A purge removes the peers of its registry from the SFUs that the registry names. -/
theorem runPurge {dependency : String} :
    contract.Admits keeps (state.runPurge dependency) := by
  intro known holds
  refine ⟨tolerates.steps _ (by trivial) known holds, fun rooms _ => ?_⟩
  let told (known : Knowledge) : Prop := ∀ room ∈ rooms, ∀ participant ∈ room.2,
    known.Learned room.1 ⟨state.node, participant.2⟩
  have stable : Contract.Stable (deployment restriction) told :=
    fun known op reply learned room listed participant member =>
      stable_learned known op reply (learned room listed participant member)
  have knows := tolerates.and stable
  have purges : contract.Admits (fun known => keeps known ∧ told known)
      (rooms.forM State.purgePeers) := by
    refine Contract.Admits.forM fun room listed => Contract.Admits.forM fun participant member => ?_
    unfold State.detachFromSfu
    cases placed : participant.2 with
    | none => exact Contract.Admits.ret _
    | some sfuAddr =>
        refine (Contract.Admits.perform knows.stable fun known both => knows.directs known both
          (.deletePeer sfuAddr room.1 participant.1 "signaling_purge") ⟨state.node, ?_⟩).bind
            fun _ => Contract.Admits.ret _
        rw [← placed]
        exact both.2 room listed participant member
  have rest : contract.Admits (fun known => keeps known ∧ told known) (do
      rooms.forM fun room => do
        let _ ← state.broadcastToRoom room.1 none (.serviceUnavailable dependency 5000)
      rooms.forM State.purgePeers
      issue (.peers state.node .clear)
      issue (.sessions state.node .clear)) := by
    refine Contract.Admits.bind (Contract.Admits.forM fun room _ =>
      knows.broadcastToRoom.bind fun _ => Contract.Admits.ret _) fun _ => ?_
    refine purges.bind fun _ => ?_
    exact (knows.step (by trivial)).bind fun _ => knows.step (by trivial)
  refine (rest _ ⟨tolerates.stable known _ rooms holds, ?_⟩).mono fun _ _ both => both.1
  exact fun room listed participant member => learned_snapshot known listed member

/-! ## The supervisor -/

/-- A room is reclaimed by releasing its slot and removing its keys. -/
theorem reclaimRoom {binding : Supervisor.RoomBinding} :
    contract.Admits keeps (Supervisor.reclaimRoom roomId binding) := by
  have release : contract.Admits keeps (Supervisor.releaseSlot binding.sfuInstanceId) := by
    cases binding.sfuInstanceId with
    | none => exact Contract.Admits.ret _
    | some instanceId => exact logged_admits (tolerates.supervisorSlots tolerates.stable instanceId)
  refine release.bind fun _ => ?_
  refine (logged_admits (tolerates.only (redisCommand_drop_only (by trivial)))).bind fun _ => ?_
  exact logged_admits (tolerates.only (redisCommand_drop_only (by trivial)))

variable {config : Supervisor.Config}

/-- A scan only reads. -/
theorem scanFrom {pattern : ScanPattern} {bound : ℕ} {cursor : Cursor} {results : List String} :
    contract.Admits keeps (Supervisor.scanFrom pattern bound cursor results).run :=
  tolerates.only (Supervisor.scanFrom_only (fun _ => trivial) trivial)

/-- The rooms of a dead SFU are closed by their nodes or reclaimed. -/
theorem handleDeadSfu {sfuGrpcAddr : Address} :
    contract.Admits keeps (Supervisor.handleDeadSfu config sfuGrpcAddr) := by
  refine tolerates.scanFrom.bind fun scanned => ?_
  cases scanned with
  | error => exact Contract.Admits.ret _
  | ok bindingIds =>
      refine Contract.Admits.forM fun roomId _ => ?_
      refine Contract.Admits.bind ((tolerates.redisCommand (by trivial)).except_bind fun _ =>
        Contract.Admits.ret _) fun found => ?_
      split
      · exact Contract.Admits.ret _
      · exact Contract.Admits.ret _
      · split
        · exact Contract.Admits.ret _
        · refine Contract.Admits.bind
            (tolerates.only (Supervisor.notifyOwner_only fun _ => trivial)) fun _ => ?_
          exact tolerates.reclaimRoom

/-- An iteration of the janitor releases slots and removes keys. -/
theorem runJanitorIteration :
    contract.Admits keeps (Supervisor.runJanitorIteration config).run := by
  refine Contract.Admits.except_bind ((tolerates.step (by trivial)).lift.except_bind fun _ =>
    tolerates.redisCommand (by trivial)) fun alive => ?_
  refine (tolerates.step (by trivial)).lift.except_bind fun now => ?_
  refine tolerates.scanFrom.except_bind fun bindingIds => ?_
  refine Contract.Admits.except_bind (Contract.Admits.except_forM fun roomId _ => ?_) fun _ => ?_
  · refine Contract.Admits.except_bind ((tolerates.redisCommand (by trivial)).except_bind fun _ =>
      Contract.Admits.ret _) fun found => ?_
    cases found with
    | none => exact Contract.Admits.ret _
    | some binding =>
        dsimp only
        split
        · exact Contract.Admits.ret _
        · exact tolerates.reclaimRoom.lift
  refine tolerates.scanFrom.except_bind fun rooms => ?_
  refine Contract.Admits.except_bind (Contract.Admits.except_forM fun roomId _ =>
    tolerates.only (Supervisor.deleteIfOrphan_only trivial)) fun _ => ?_
  refine Contract.Admits.except_bind ((tolerates.redisCommand (by trivial)).except_bind fun _ =>
    Contract.Admits.ret _) fun loadMembers => ?_
  refine Contract.Admits.except_bind (Contract.Admits.except_forM fun nodeId _ =>
    tolerates.only (Supervisor.removeLoadIfStale_only trivial)) fun _ => ?_
  refine tolerates.scanFrom.except_bind fun sessionIds => ?_
  refine Contract.Admits.except_bind (Contract.Admits.except_forM fun sessionId _ =>
    tolerates.only (Supervisor.deleteSessionIfStale_only trivial trivial)) fun _ => ?_
  exact (logged_admits (tolerates.redisCommand (by trivial))).lift

/-- A probe of the signaling nodes writes no record of an SFU. -/
theorem signalingProbeTick : contract.Admits keeps (Supervisor.signalingProbeTick config) := by
  refine Contract.Admits.forM fun probed _ => ?_
  refine (tolerates.step (by trivial)).bind fun answers => ?_
  cases answers with
  | true =>
      refine (tolerates.step (by trivial)).bind fun now => ?_
      exact logged_admits (tolerates.redisCommand (by trivial))
  | false =>
      refine Contract.Admits.bind ((tolerates.step (by trivial)).lift.except_bind fun _ =>
        tolerates.redisCommand (by trivial)) fun alive => ?_
      cases alive with
      | error => exact Contract.Admits.ret _
      | ok alive =>
          dsimp only
          split
          · exact Contract.Admits.ret _
          · exact logged_admits (tolerates.redisCommand (by trivial))

/-! ## The connector -/

/-- The connector's read of a session is harmless. -/
theorem connectorSessionGet : contract.Admits keeps (Connector.sessionGet sessionId).run :=
  (tolerates.redisCommand (by trivial)).except_bind fun _ => Contract.Admits.ret _

/-- The release of a nickname is harmless. -/
theorem releaseNickname :
    contract.Admits keeps (Connector.releaseNickLease nickname sessionId).run :=
  tolerates.only (redisCommand_drop_only (by trivial))

/-- The connector's login writes a nickname and a session. -/
theorem auth {config : Connector.Config} :
    contract.Admits keeps (Connector.auth config nickname).run := by
  unfold Connector.auth
  split
  · exact Contract.Admits.ret _
  · refine (tolerates.step (by trivial)).lift.except_bind fun sessionId => ?_
    refine Contract.Admits.except_bind (Contract.Admits.adapt ?_) fun _ => ?_
    · refine (tolerates.redisCommand (by trivial)).except_bind fun acquired => ?_
      cases acquired <;> exact Contract.Admits.ret _
    · refine Contract.Admits.except_bind (Contract.Admits.lift ?_) fun created => ?_
      · refine (tolerates.redisCommand (by trivial)).except_bind fun _ => ?_
        refine (tolerates.redisCommand (by trivial)).except_bind fun _ => ?_
        exact tolerates.only (redisCommand_drop_only (by trivial))
      · cases created with
        | ok => exact Contract.Admits.ret _
        | error => exact tolerates.releaseNickname.lift.except_bind fun _ => Contract.Admits.ret _

/-- The connector's logout deletes a session and releases its nickname. -/
theorem connectorLogout : contract.Admits keeps (Connector.logout sessionId).run := by
  refine tolerates.connectorSessionGet.adapt.except_bind fun found => ?_
  cases found with
  | none => exact Contract.Admits.ret _
  | some session =>
      refine Contract.Admits.except_bind
        (tolerates.only (redisCommand_drop_only (by trivial))).lift fun _ => ?_
      exact tolerates.releaseNickname.lift.except_bind fun _ => Contract.Admits.ret _

/-- A renewal only prolongs a session. -/
theorem sessionRenew {config : Connector.Config} :
    contract.Admits keeps (Connector.sessionRenew config sessionId).run := by
  refine tolerates.connectorSessionGet.adapt.except_bind fun found => ?_
  cases found with
  | none => exact Contract.Admits.ret _
  | some session =>
      refine (tolerates.redisCommand (by trivial)).adapt.except_bind fun owner => ?_
      split
      · exact Contract.Admits.ret _
      · refine (tolerates.redisCommand (by trivial)).adapt.except_bind fun renewed => ?_
        cases renewed <;> exact Contract.Admits.ret _

variable {routing : Connector.RoutingConfig} {isUuid : String → Bool} {jwt : Jwt}

/-- The connector's check of a session is harmless. -/
theorem requireSession : contract.Admits keeps (Connector.requireSession sessionId).run := by
  refine tolerates.connectorSessionGet.adapt.except_bind fun found => ?_
  cases found <;> exact Contract.Admits.ret _

/-- A token is issued without a write to the store. -/
theorem issueSignalingToken {signaling : Connector.SignalingInstance} {intent : String}
    {room : Option RoomId} :
    contract.Admits keeps (Connector.issueSignalingToken routing jwt sessionId
      nickname signaling intent room).run := by
  refine Contract.Admits.except_bind (Contract.Admits.lift ?_) fun _ => Contract.Admits.ret _
  refine (tolerates.step (by trivial)).bind fun _ => ?_
  exact (tolerates.step (by trivial)).bind fun _ => Contract.Admits.ret _

/-- A create of the connector chooses a node and issues a token. -/
theorem create {status : Except Connector.RedisError (Option Connector.SupervisorStatus)} :
    contract.Admits keeps (Connector.create routing isUuid jwt status sessionId).run := by
  have fresh : contract.Admits keeps (Connector.checkSupervisorFreshness routing status).run := by
    unfold Connector.checkSupervisorFreshness
    split
    · exact Contract.Admits.ret _
    · exact Contract.Admits.ret _
    · refine (tolerates.step (by trivial)).lift.except_bind fun now => ?_
      split <;> exact Contract.Admits.ret _
  have select : contract.Admits keeps (Connector.selectLeastLoadedSignaling routing).run := by
    refine (tolerates.redisCommand (by trivial)).adapt.except_bind fun loads => ?_
    refine Contract.Admits.except_bind (Contract.Admits.adapt
      ((tolerates.step (by trivial)).lift.except_bind fun _ =>
        tolerates.redisCommand (by trivial))) fun alive => ?_
    split <;> exact Contract.Admits.ret _
  unfold Connector.create
  split
  · exact Contract.Admits.ret _
  · refine fresh.except_bind fun _ => ?_
    refine tolerates.requireSession.except_bind fun session => ?_
    exact select.except_bind fun signaling => tolerates.issueSignalingToken

/-- A join of the connector reads the route and issues a token. -/
theorem join : contract.Admits keeps (Connector.join routing isUuid jwt sessionId roomId).run := by
  unfold Connector.join
  split
  · exact Contract.Admits.ret _
  · refine tolerates.requireSession.except_bind fun session => ?_
    refine Contract.Admits.except_bind (Contract.Admits.adapt
      ((tolerates.redisCommand (by trivial)).except_bind fun _ => Contract.Admits.ret _)) ?_
    intro route
    split
    · exact Contract.Admits.ret _
    · exact tolerates.issueSignalingToken

end Tolerates

end Callifornia.Deployment
