import Callifornia.Signaling.Departures
import Callifornia.TokenReplay

/-! # Departures are announced exactly when they happen

Every handler of a node is followed through its broadcasts and the peers it detaches.
The handlers of the WebSocket announce each peer they remove, also those their own
announcements find stale. The handler of SFU events does so only under conditions,
which the runs of `agreeing` meet.
-/

namespace Callifornia.Signaling.Departures

open Concurrency Concurrency.Program FiniteMap Store

/-! ## Requests and disconnects -/

section Handlers

variable {state : State} {allows : Record → (op : Op) → op.Reply → Prop}
  {before : World × Journal} {α β ε : Type}

/-- A part of a handler after which the departures announced are those that happened. -/
abbrev Settles (state : State) (allows : Record → (op : Op) → op.Reply → Prop) (program : Call α)
    (before : World × Journal) : Prop :=
  Yields state allows program before fun _ after => (record state.node after).Exact

/-- Quiet steps leave the account exact. -/
theorem settles_quiet {program : Call α} (exact : (record state.node before).Exact)
    (only : program.Only Quiet) : Settles state allows program before := by
  apply (yields_quiet only).mono
  intro _ after same
  rw [same]
  exact exact

/-- A part that concerns no peer, and the rest. -/
theorem settles_quiet_bind {program : ExceptT ε Call α} {rest : α → ExceptT ε Call β}
    (exact : (record state.node before).Exact) (only : program.run.Only Quiet)
    (next : ∀ value middle, record state.node middle = record state.node before →
      Settles state allows (rest value).run middle) :
    Settles state allows (program >>= rest).run before := by
  apply (yields_quiet only).except_bind
  · exact next
  · intro _ middle same
    rw [same]
    exact exact

/-- A part that settles, and a rest that concerns no peer. -/
theorem settles_except_bind {program : ExceptT ε Call α} {rest : α → ExceptT ε Call β}
    (first : Settles state allows program.run before)
    (next : ∀ value, (rest value).run.Only Quiet) :
    Settles state allows (program >>= rest).run before := by
  apply first.except_bind
  · intro value middle exact
    exact settles_quiet exact (next value)
  · intro _ _ exact
    exact exact

/-- The sweep announces and removes known peers only. -/
theorem settles_detachStalePeers (roomId : RoomId) (reason : String) (bound : ℕ)
    {staleNicknames : List Nickname} (exact : (record state.node before).Exact)
    (known : ∀ nickname ∈ staleNicknames, (record state.node before).Known roomId nickname) :
    Settles state allows (detachStalePeers state roomId reason bound staleNicknames) before := by
  induction bound generalizing before staleNicknames with
  | zero =>
      unfold detachStalePeers
      cases staleNicknames.getLast? with
      | none => exact ensures_ret.mpr exact
      | some nickname => exact ensures_call.mpr fun reply => reply.elim
  | succ bound ih =>
      unfold detachStalePeers
      cases last : staleNicknames.getLast? with
      | none => exact ensures_ret.mpr exact
      | some nickname =>
          have swept := known nickname (List.mem_of_getLast? last)
          apply (yields_broadcast roomId (some nickname) (.participantLeft nickname)).bind
          intro moreStale middle broadcast
          apply (yields_detachPeer roomId nickname reason).bind
          rintro _ after ⟨-, detached⟩
          apply ih
          · rw [detached]
            exact exact.sweep swept broadcast
          · intro other member
            rw [detached]
            apply Record.Known.unregister
            apply broadcast.known
            rcases List.mem_append.mp member with earlier | more
            · exact known other (List.dropLast_subset _ earlier)
            · exact .inl (broadcast.registered more).2

/-- An announcement, and the sweep of those who refuse it. -/
theorem settles_announce (roomId : RoomId) (nickname : Nickname) (message : ServerMessage)
    (announces : ∀ stale after, Record.Broadcast roomId (some nickname) message stale
      (record state.node before) after → after.Exact) :
    Settles state allows (announce state roomId nickname message) before := by
  apply (yields_broadcast roomId (some nickname) message).bind
  intro stale middle broadcast
  apply settles_detachStalePeers _ _ _ (announces stale _ broadcast)
  intro other member
  exact broadcast.known (.inl (broadcast.registered member).2)

section Leaving

variable (leaves : ∀ record roomId nickname,
  allows record (.peers state.node (.unregister roomId nickname)) () →
    (roomId, nickname) ∈ record.peers ∨ (roomId, nickname) ∈ record.removed ∨
      PeerRegistry.nicknames record.peers roomId = ∅)

include leaves

/-- Whoever leaves is announced once. -/
theorem settles_leaveRoomAndNotify (roomId : RoomId) (nickname : Nickname) (reason : String)
    (exact : (record state.node before).Exact) :
    Settles state allows (leaveRoomAndNotify state roomId nickname reason) before := by
  apply (yields_detachPeer roomId nickname reason).bind
  rintro _ middle ⟨allowed, detached⟩
  apply settles_announce
  intro stale after broadcast
  rw [detached] at broadcast
  refine exact.leave ?_ broadcast
  rcases leaves _ roomId nickname allowed with registered | removed | alone
  · exact .inl (Record.Known.removed (.inl registered))
  · exact .inl (Record.Known.removed (.inr removed))
  · exact .inr alone

/-- Leaving a room leaves the account exact. -/
theorem settles_leaveRoomOf (connection : ConnectionId) (sessionId : SessionId) (roomId : RoomId)
    (nickname : Nickname) (participants : Option (List String)) (reason : String)
    (exact : (record state.node before).Exact) :
    Settles state allows
      (leaveRoomOf state connection sessionId roomId nickname participants reason).run before := by
  have quiet : Converses state connection Quiet := converses_quiet connection
  apply settles_quiet_bind exact quiet.requireRedis
  intro _ middle same
  have left : Settles state allows (liftM (leaveRoomAndNotify state roomId nickname reason) :
      WsCall Unit).run middle :=
    ensures_lift.mpr (settles_leaveRoomAndNotify leaves roomId nickname reason (same ▸ exact))
  apply settles_except_bind left
  intro _
  refine (Only.adapt (redisCommand_only trivial)).except_bind fun _ => ?_
  refine (Only.lift (issue_only (quiet.sessions _))).except_bind fun _ => ?_
  exact Only.lift (issue_only trivial)

/-- A leave leaves the account exact. -/
theorem settles_handleLeave (connection : ConnectionId) (sessionId : SessionId) (roomId : RoomId)
    (participants : Option (List String)) (exact : (record state.node before).Exact) :
    Settles state allows (handleLeave state connection sessionId roomId participants).run
      before := by
  have quiet : Converses state connection Quiet := converses_quiet connection
  apply settles_quiet_bind exact (quiet.checkSession sessionId)
  intro session middle same
  have exact : (record state.node middle).Exact := same ▸ exact
  cases session.roomId with
  | none => exact ensures_throw.mpr exact
  | some currentRoom =>
      by_cases other : currentRoom ≠ roomId
      · simp only [if_pos other]
        exact ensures_throw.mpr exact
      · simp only [if_neg other]
        apply settles_except_bind
        · exact settles_leaveRoomOf leaves connection sessionId roomId session.nickname
            participants "user_left" exact
        · intro _
          exact quiet.sendMessage _

/-- A logout leaves the account exact. -/
theorem settles_handleLogout (connection : ConnectionId) (sessionId : SessionId)
    (participants : Option (List String)) (exact : (record state.node before).Exact) :
    Settles state allows (handleLogout state connection sessionId participants).run before := by
  have quiet : Converses state connection Quiet := converses_quiet connection
  apply settles_quiet_bind exact (quiet.checkSession sessionId)
  intro session middle same
  have exact : (record state.node middle).Exact := same ▸ exact
  have left : Settles state allows (leaveOnLogout state connection sessionId session.nickname
      participants session.roomId).run middle := by
    cases session.roomId with
    | none => exact ensures_except_pure.mpr exact
    | some roomId =>
        exact settles_leaveRoomOf leaves connection sessionId roomId session.nickname participants
          "user_logout" exact
  apply settles_except_bind left
  intro _
  refine (quiet.logoutRedis (counts_quiet connection) trivial trivial).except_bind fun _ => ?_
  refine (Only.lift (issue_only (quiet.sessions _))).except_bind fun _ => ?_
  refine (Only.lift (issue_only trivial)).except_bind fun _ => ?_
  exact quiet.sendMessage _

/-- A connection that ends in a room leaves the account exact. -/
theorem settles_leaveOnDisconnect (sessionId : SessionId) (nickname : Nickname)
    (left : Option RoomId) (exact : (record state.node before).Exact) :
    Settles state allows (leaveOnDisconnect state sessionId nickname left) before := by
  cases left with
  | none => exact ensures_ret.mpr exact
  | some roomId =>
      apply (settles_leaveRoomAndNotify leaves roomId nickname "signaling_disconnected" exact).bind
      intro _ middle exact
      apply settles_quiet exact
      exact Only.bind (redisCommand_only trivial) fun _ => issue_only trivial

/-- The cleanup of a session leaves the account exact. -/
theorem settles_cleanupSession (context : ConnectionContext) (sessionId : SessionId)
    (exact : (record state.node before).Exact) :
    Settles state allows (cleanupSession state context sessionId) before := by
  have quiet : Converses state 0 Quiet := converses_quiet 0
  have remove : (state.removeSession sessionId).Only Quiet := issue_only trivial
  have find : (sessionForCleanup state sessionId).Only Quiet := by
    refine Only.bind (issue_only trivial) fun known => ?_
    cases known with
    | some session => trivial
    | none => exact Only.bind (quiet.sessionGet _) fun _ => trivial
  have uncount : (uncountOnDisconnect state context).Only Quiet := by
    unfold uncountOnDisconnect
    split
    · exact Only.bind (quiet.decrementInstanceLoad (counts_quiet 0)) fun _ => trivial
    · trivial
  apply (settles_quiet exact (State.isRedisAvailable_only trivial)).bind
  intro up first exact
  cases up with
  | false => exact settles_quiet exact remove
  | true =>
      apply (settles_quiet exact find).bind
      intro found second exact
      cases found with
      | none => exact settles_quiet exact remove
      | some session =>
          apply (settles_leaveOnDisconnect leaves sessionId session.nickname session.roomId
            exact).bind
          intro _ third exact
          exact settles_quiet exact (Only.bind uncount fun _ => remove)

/-- The end of a connection. -/
theorem settles_cleanupConnection (connection : ConnectionId)
    (exact : (record state.node before).Exact) :
    Settles state allows (cleanupConnection state connection) before := by
  have quiet : Converses state connection Quiet := converses_quiet connection
  have renews : (setContext connection ({ · with leaseRenewer := none })).Only Quiet :=
    issue_only trivial
  apply (settles_quiet exact renews).bind
  intro _ first exact
  apply (settles_quiet exact (issue_only quiet.recalls)).bind
  intro context second exact
  cases context.sessionId with
  | none => exact ensures_ret.mpr exact
  | some sessionId => exact settles_cleanupSession leaves context sessionId exact

end Leaving

section Entering

variable {peers : PeerRegistry} (opening : record state.node before = ⟨peers, [], []⟩)

include opening

/-- A join leaves the account exact. -/
theorem settles_handleJoinLocked (connection : ConnectionId) (sessionId : SessionId)
    (roomId : RoomId) :
    Settles state allows (handleJoinLocked state connection sessionId roomId).run before := by
  have quiet : Converses state connection Quiet := converses_quiet connection
  have exact : (record state.node before).Exact := opening ▸ .opening peers
  apply settles_quiet_bind exact (quiet.admitJoin sessionId roomId)
  intro session first same
  rw [← same] at exact opening
  apply settles_quiet_bind exact (quiet.joinTarget roomId)
  intro sfuAddr second same
  rw [← same] at exact opening
  apply settles_quiet_bind exact (quiet.enterRoom trivial)
  intro participants third same
  rw [← same] at exact opening
  apply settles_quiet_bind exact (quiet.recordRoom trivial)
  intro _ fourth same
  rw [← same] at exact opening
  apply settles_quiet_bind exact (quiet.sendMessage _)
  intro _ fifth same
  rw [← same] at exact opening
  refine ensures_lift_bind.mpr ((yields_register roomId session.nickname _).mono ?_)
  intro _ entered registered
  rw [opening] at registered
  apply ensures_lift.mpr
  apply settles_announce
  intro stale after broadcast
  rw [registered] at broadcast
  exact (Record.Exact.opening _).broadcast broadcast fun _ => nofun

/-- A create leaves the account exact. -/
theorem settles_handleCreateLocked (connection : ConnectionId) (sessionId : SessionId) :
    Settles state allows (handleCreateLocked state connection sessionId).run before := by
  have quiet : Converses state connection Quiet := converses_quiet connection
  have exact : (record state.node before).Exact := opening ▸ .opening peers
  rw [handleCreateLocked_eq]
  apply settles_quiet_bind exact (quiet.admitCreate sessionId)
  intro session first same
  rw [← same] at exact opening
  apply settles_quiet_bind exact (Only.lift (issue_only (show Quiet .newUuid from trivial)))
  intro roomId second same
  rw [← same] at exact opening
  apply settles_quiet_bind exact (Only.adapt (quiet.assignRoom fun _ => trivial))
  intro assignment third same
  rw [← same] at exact opening
  apply settles_quiet_bind exact (quiet.openRoom trivial)
  intro _ fourth same
  rw [← same] at exact opening
  apply settles_quiet_bind exact (quiet.recordRoom trivial)
  intro _ fifth same
  rw [← same] at exact opening
  apply settles_quiet_bind exact (quiet.sendMessage _)
  intro _ sixth same
  rw [← same] at exact opening
  refine ensures_lift.mpr ((yields_register roomId session.nickname _).mono ?_)
  intro _ entered registered
  rw [registered, opening]
  exact .opening _

/-- A handler that holds the session's lock. -/
theorem settles_withSessionLock {handler : WsCall Unit} (connection : ConnectionId)
    (sessionId : SessionId) (handles : ∀ middle, record state.node middle = ⟨peers, [], []⟩ →
      Settles state allows handler.run middle) :
    Settles state allows (withSessionLock state sessionId handler).run before := by
  have quiet : Converses state connection Quiet := converses_quiet connection
  have exact : (record state.node before).Exact := opening ▸ .opening peers
  apply settles_quiet_bind exact quiet.requireRedis
  intro _ first same
  rw [← same] at exact opening
  apply settles_quiet_bind exact (Only.lift (issue_only (show Quiet .newUuid from trivial)))
  intro lockOwner second same
  rw [← same] at exact opening
  apply settles_quiet_bind exact (Only.adapt (redisCommand_only trivial))
  intro acquired third same
  rw [← same] at exact opening
  cases acquired with
  | false => exact ensures_throw.mpr exact
  | true =>
      apply (handles third opening).bind
      intro result last exact
      apply settles_quiet exact
      exact Only.bind (redisCommand_drop_only trivial) fun _ => trivial

end Entering

/-- Handling a client's message. -/
theorem settles_handleText (connection : ConnectionId) (jwt : Jwt) (request : ClientMessage)
    (leaves : ∀ record roomId nickname,
      allows record (.peers state.node (.unregister roomId nickname)) () →
        (roomId, nickname) ∈ record.peers ∨ (roomId, nickname) ∈ record.removed ∨
          PeerRegistry.nicknames record.peers roomId = ∅)
    {peers : PeerRegistry} (opening : record state.node before = ⟨peers, [], []⟩) :
    Settles state allows (handleText state connection jwt request) before := by
  have quiet : Converses state connection Quiet := converses_quiet connection
  have exact : (record state.node before).Exact := opening ▸ .opening peers
  have handled : Settles state allows (handleClientMessage state connection jwt request).run
      before := by
    cases request with
    | attach token =>
        exact settles_quiet exact
          (quiet.handleAttach (fun _ _ => trivial) (fun _ => trivial) trivial
        fun _ => trivial)
    | logout sessionId participants =>
        exact settles_handleLogout leaves connection sessionId participants exact
    | create sessionId =>
        apply settles_withSessionLock opening connection
        intro middle opening
        exact settles_handleCreateLocked opening connection sessionId
    | join sessionId roomId =>
        apply settles_withSessionLock opening connection
        intro middle opening
        exact settles_handleJoinLocked opening connection sessionId roomId
    | leave sessionId roomId participants =>
        exact settles_handleLeave leaves connection sessionId roomId participants exact
    | sdp sessionId sdp sdpType =>
        exact settles_quiet exact (quiet.handleSdp fun _ _ _ => trivial)
    | candidate sessionId candidate sdpMid =>
        exact settles_quiet exact (quiet.handleCandidate fun _ _ _ => trivial)
  apply handled.bind
  intro result after exact
  cases result with
  | ok => exact ensures_ret.mpr exact
  | error error =>
      cases error with
      | writeFailed => exact ensures_ret.mpr exact
      | _ => exact settles_quiet exact (issue_only (quiet.answers _))

/-! ## Events of an SFU -/

/-- A channel accepts or refuses an announcement as the channels before it. -/
def Uniform (allows : Record → (op : Op) → op.Reply → Prop) (message : ServerMessage) : Prop :=
  ∀ record sender (accepted : Bool), allows record (.trySend sender message) accepted →
    ∀ offer ∈ record.offers, offer.message = message → offer.accepted = accepted

variable {message : ServerMessage}

/-- After the first offer the fate of all others is known. -/
theorem yields_uniform_after (uniform : Uniform allows message)
    {targets : List (Nickname × ConnectionId)} {offer : Offer}
    (member : offer ∈ (record state.node before).offers) (text : offer.message = message) :
    Yields state allows (State.sendToEach message targets) before fun stale _ =>
      stale = if offer.accepted then [] else targets.map Prod.fst := by
  induction targets generalizing before with
  | nil => exact ensures_ret.mpr (ite_self _).symm
  | cons target targets ih =>
      apply (yields_trySend target.2 message).bind
      rintro accepted middle ⟨allowed, offered, -⟩
      obtain rfl := uniform _ _ accepted allowed offer member text
      have kept : offer ∈ (record state.node middle).offers := by
        rw [offered]
        exact List.mem_cons_of_mem _ member
      apply (ih kept).bind
      rintro _ after rfl
      apply ensures_ret.mpr
      cases offer.accepted <;> rfl

/-- All channels accept, or all refuse. -/
theorem yields_uniform (uniform : Uniform allows message)
    {targets : List (Nickname × ConnectionId)} :
    Yields state allows (State.sendToEach message targets) before fun stale _ =>
      stale = [] ∨ stale = targets.map Prod.fst := by
  cases targets with
  | nil => exact ensures_ret.mpr (.inl rfl)
  | cons target targets =>
      apply (yields_trySend target.2 message).bind
      rintro accepted middle ⟨-, offered, -⟩
      have first : (⟨before.2.room, target.2, message, accepted⟩ : Offer) ∈
          (record state.node middle).offers := by
        rw [offered]
        exact List.mem_cons_self
      apply (yields_uniform_after uniform first rfl).bind
      rintro _ after rfl
      apply ensures_ret.mpr
      cases accepted with
      | true => exact .inl rfl
      | false => exact .inr rfl

/-- With uniform replies either no channel refuses or all do. -/
theorem yields_broadcast_uniform (uniform : Uniform allows message) (roomId : RoomId)
    (exceptNickname : Option Nickname) :
    Yields state allows (state.broadcastToRoom roomId exceptNickname message) before
      fun stale _ => stale = [] ∨ ∀ nickname, exceptNickname ≠ some nickname →
        (roomId, nickname) ∈ (record state.node before).peers → nickname ∈ stale := by
  apply (yields_targets roomId exceptNickname).bind
  rintro targets middle ⟨⟨-, all⟩, -⟩
  apply (yields_uniform uniform).mono
  rintro stale after (rfl | rfl)
  · exact .inl rfl
  · refine .inr fun nickname other registered => ?_
    obtain ⟨entry, found⟩ := Finmap.mem_iff.mp registered
    exact List.mem_map.mpr ⟨(nickname, entry.sender), (all _ _).mpr ⟨other, entry, found, rfl⟩, rfl⟩

/-- Several peers are taken out of the registry. -/
theorem yields_detachEach (roomId : RoomId) (nicknames : List Nickname) :
    Yields state allows (SfuEvents.detachEach state roomId nicknames) before fun _ after =>
      Record.Cleared roomId nicknames (record state.node before) (record state.node after) := by
  induction nicknames generalizing before with
  | nil => exact ensures_ret.mpr .nil
  | cons nickname nicknames ih =>
      apply (yields_detachPeer roomId nickname "stale_sender").bind
      rintro _ middle ⟨-, detached⟩
      apply ih.mono
      intro _ after cleared
      rw [detached] at cleared
      exact cleared.cons

/-- One message to one peer. -/
theorem yields_sendToPeer (roomId : RoomId) (nickname : Nickname) (payload : ServerMessage) :
    Yields state allows (state.sendToPeer roomId nickname payload) before fun status after =>
      (record state.node after = record state.node before ∨
        ∃ sender accepted, record state.node after = (record state.node before).offer
          ⟨after.2.room, sender, payload, accepted⟩) ∧
      (status = .stale → (roomId, nickname) ∈ (record state.node after).peers) := by
  apply (yields_sender roomId nickname).bind
  rintro found middle ⟨lookup, same⟩
  cases found with
  | none => exact ensures_ret.mpr ⟨.inl same, nofun⟩
  | some sender =>
      apply (yields_trySend sender payload).bind
      rintro accepted after ⟨-, offered, room⟩
      rw [same, ← room] at offered
      refine ensures_ret.mpr ⟨.inr ⟨sender, accepted, offered⟩, fun _ => ?_⟩
      obtain ⟨entry, registered, -⟩ := Option.map_eq_some_iff.mp lookup.symm
      rw [offered]
      exact Finmap.mem_of_lookup_eq_some registered

/-- A message to one peer leaves the account exact. -/
theorem settles_sendToPeer (roomId : RoomId) (nickname : Nickname) (payload : ServerMessage)
    (uniform : Uniform allows (.participantLeft nickname))
    (other : ∀ nickname, payload ≠ .participantLeft nickname) {peers : PeerRegistry}
    (opening : record state.node before = ⟨peers, [], []⟩) :
    Settles state allows (SfuEvents.sendToPeer state roomId nickname payload) before := by
  unfold SfuEvents.sendToPeer
  split
  · exact ensures_ret.mpr (opening ▸ .opening peers)
  · apply (yields_sendToPeer roomId nickname payload).bind
    rintro status first ⟨offers, registered⟩
    have exact : (record state.node first).Exact := by
      rw [opening] at offers
      rcases offers with same | ⟨sender, accepted, same⟩
      · exact same ▸ .opening peers
      · exact same ▸ (Record.Exact.opening peers).offer other
    cases status with
    | delivered => exact ensures_ret.mpr exact
    | missing => exact ensures_ret.mpr exact
    | stale =>
        have registered := registered rfl
        apply (yields_detachPeer roomId nickname "stale_sender").bind
        rintro _ second ⟨-, detached⟩
        apply ((yields_broadcast roomId (some nickname) (.participantLeft nickname)).and
          (yields_broadcast_uniform uniform roomId (some nickname))).bind
        rintro stale third ⟨broadcast, fates⟩
        rw [detached] at broadcast fates
        have exact := exact.leave (.inl (Record.Known.removed (.inl registered))) broadcast
        apply (yields_detachEach roomId stale).mono
        intro _ after cleared
        refine exact.cleared (fates.imp_right fun all peer member => ?_) cleared
        rw [broadcast.peers] at member
        refine all peer (fun same => ?_) member
        exact (Finmap.mem_erase.mp member).1 (congrArg (roomId, ·) (Option.some.inj same).symm)

/-- A lost participant that is the only peer of its room. -/
theorem settles_broadcastToRoom (roomId : RoomId) (nickname : Nickname) {peers : PeerRegistry}
    (opening : record state.node before = ⟨peers, [], []⟩)
    (alone : PeerRegistry.nicknames peers roomId ⊆ {nickname}) :
    Settles state allows (SfuEvents.broadcastToRoom state roomId (some nickname)
      (.participantLeft nickname)) before := by
  have nobody (other : Nickname) (registered : (roomId, other) ∈ (record state.node before).peers) :
      some nickname = some other := by
    rw [opening] at registered
    have listed := alone ((PeerRegistry.mem_nicknames _).mpr registered)
    exact congrArg some (Finset.mem_singleton.mp listed).symm
  apply (yields_broadcast roomId (some nickname) (.participantLeft nickname)).bind
  intro stale middle broadcast
  have none : stale = [] := by
    refine List.eq_nil_iff_forall_not_mem.mpr fun other member => ?_
    obtain ⟨different, registered⟩ := broadcast.registered member
    exact different (nobody other registered)
  have exact : (record state.node middle).Exact := by
    constructor
    · intro room left member
      rw [broadcast.removed, opening] at member
      exact absurd member List.not_mem_nil
    · intro offer member left told
      rcases broadcast.fresh member with earlier | ⟨-, -, other, different, registered⟩
      · rw [opening] at earlier
        exact absurd earlier List.not_mem_nil
      · exact absurd (nobody other registered) different
  apply (yields_detachEach roomId stale).mono
  intro _ after cleared
  exact exact.cleared (.inl none) cleared

/-- An SFU event leaves the account exact if its participant's news goes to nobody or to all. -/
theorem settles_handleSfuEvent (event : SfuEvent)
    (uniform : Uniform allows (.participantLeft event.participantId)) {peers : PeerRegistry}
    (opening : record state.node before = ⟨peers, [], []⟩)
    (alone : event.detail = some .peerDisconnected → event.participantId = "" ∨
      PeerRegistry.nicknames peers event.roomId ⊆ {event.participantId}) :
    Settles state allows (handleSfuEvent state event) before := by
  obtain ⟨roomId, participantId, detail⟩ := event
  have exact : (record state.node before).Exact := opening ▸ .opening peers
  cases detail with
  | none => exact ensures_ret.mpr exact
  | some detail =>
      cases detail with
      | peerConnected | trackAdded | trackRemoved => exact ensures_ret.mpr exact
      | iceCandidate | error => exact settles_sendToPeer _ _ _ uniform (fun _ => nofun) opening
      | peerDisconnected =>
          unfold handleSfuEvent
          by_cases empty : participantId = ""
          · simp only [if_pos empty]
            exact ensures_ret.mpr exact
          · simp only [if_neg empty]
            exact settles_broadcastToRoom _ _ opening ((alone rfl).resolve_left empty)

end Handlers

/-! ## Runs of the node -/

variable {state : State} {jwt : Jwt}

/-- **Step lemma.** When the paths agree, a step announces what happened in it. -/
theorem exact_of_served {step : NodeStep} {before after : World} {journal : Journal}
    (starts : agreeing.starts step (before.nodes state.node).peers)
    (run : (step.program state jwt).Runs (Notes state.node (agreeing.allows step)) (before, {}) ()
      (after, journal)) : (record state.node (after, journal)).Exact := by
  have opening : record state.node (before, {}) = ⟨(before.nodes state.node).peers, [], []⟩ := rfl
  have settles : Settles state (agreeing.allows step) (step.program state jwt) (before, {}) := by
    cases step with
    | message connection request =>
        have handled := settles_handleText connection jwt request
          (fun _ _ _ allowed => allowed : ∀ record roomId nickname, Agrees (.message connection
            request) record (.peers state.node (.unregister roomId nickname)) () → _) opening
        apply handled.bind
        intro _ _ exact
        exact ensures_ret.mpr exact
    | disconnect connection =>
        exact settles_cleanupConnection (fun _ _ _ allowed => allowed) connection (.opening _)
    | sfuEvent event =>
        apply settles_handleSfuEvent event (fun _ _ _ allowed => allowed) opening
        intro lost
        obtain ⟨roomId, participantId, detail⟩ := event
        obtain rfl : detail = some .peerDisconnected := lost
        exact starts
  exact settles.holds () _ run

/-- **In every run in which the paths agree, each step announces the departures that
happened in it, and no others.** -/
theorem exact_of_runs {world : World} {labels : List (Option NodeStep)}
    {after : World × List Record}
    (run : Runs (Step state jwt agreeing) (world, []) labels after) :
    ∀ record ∈ after.2, record.Exact := by
  have kept (label : Option NodeStep) (before after : World × List Record)
      (exact : ∀ record ∈ before.2, record.Exact) (step : Step state jwt agreeing label before
        after) : ∀ record ∈ after.2, record.Exact := by
    cases step with
    | served starts run =>
        intro record member
        rcases List.mem_cons.mp member with rfl | earlier
        · exact exact_of_served starts run
        · exact exact record earlier
    | elsewhere => exact exact
  exact run.invariant kept fun _ => nofun

/-! ## Computing a run -/

/-- One outcome of an operation that passes a check; a channel does as the hint says. -/
def sample (check : Record → Op → Bool) (hint : Hint) (op : Op) (state : World × Journal) :
    Option (op.Reply × (World × Journal)) :=
  if check (record sampleNode.node state) op then
    match op with
    | .trySend sender message =>
        some (hint.succeeds, (if hint.succeeds then state.1.enqueue sender message else state.1,
          state.2.note state.1 (.trySend sender message) hint.succeeds))
    | op => (World.sample hint op state.1).map fun outcome =>
        (outcome.1, (outcome.2, state.2.note state.1 op outcome.1))
  else none

/-- What the sampler computes is a recorded step. -/
theorem sample_sound {check : Record → Op → Bool} {allows : Record → (op : Op) → op.Reply → Prop}
    (checks : ∀ record op reply, check record op = true → allows record op reply) {hint : Hint}
    {op : Op} {before after : World × Journal} {reply : op.Reply}
    (sampled : sample check hint op before = some (reply, after)) :
    Notes sampleNode.node allows op before reply after := by
  unfold sample at sampled
  split at sampled
  · rename_i passed
    refine ⟨checks _ _ _ passed, ?_⟩
    split at sampled
    · cases sampled
      refine ⟨.inr ⟨trivial, ?_⟩, rfl⟩
      split <;> rfl
    · obtain ⟨outcome, found, same⟩ := Option.map_eq_some_iff.mp sampled
      cases same
      exact ⟨.inl (World.sample_sound found), rfl⟩
  · cases sampled

/-- The outcome of a step. -/
def serve (check : Record → Op → Bool) (step : NodeStep) (hints : List Hint)
    (reached : World × List Record) : Option (World × List Record) :=
  ((step.program sampleNode TokenFormat.openJwt).follow (sample check) hints
    (reached.1, {})).map fun outcome =>
      (outcome.2.1, record sampleNode.node outcome.2 :: reached.2)

/-- The outcome of several steps. -/
def serveAll (check : Record → Op → Bool) : List (NodeStep × List Hint) → World × List Record →
    Option (World × List Record)
  | [], reached => some reached
  | (step, hints) :: steps, reached =>
      (serve check step hints reached).bind (serveAll check steps)

/-- What the sampler serves is a run of the node. -/
theorem runs_of_serveAll {check : Record → Op → Bool} {conditions : Conditions}
    {steps : List (NodeStep × List Hint)} {before after : World × List Record}
    (starts : ∀ step ∈ steps, ∀ peers, conditions.starts step.1 peers)
    (checks : ∀ step ∈ steps, ∀ record op reply, check record op = true →
      conditions.allows step.1 record op reply)
    (served : serveAll check steps before = some after) :
    Runs (Step sampleNode TokenFormat.openJwt conditions) before
      (steps.map (some ·.1)) after := by
  induction steps generalizing before with
  | nil =>
      cases served
      exact .nil
  | cons first steps ih =>
      obtain ⟨step, hints⟩ := first
      obtain ⟨middle, now, later⟩ := Option.bind_eq_some_iff.mp served
      obtain ⟨⟨result, world, journal⟩, followed, rfl⟩ := Option.map_eq_some_iff.mp now
      refine .cons ?_ (ih (fun other member => starts other (List.mem_cons_of_mem _ member))
        (fun other member => checks other (List.mem_cons_of_mem _ member)) later)
      apply Step.served (starts _ List.mem_cons_self _)
      refine runs_of_follow (fun hint op state reply after sampled => ?_) followed
      exact sample_sound (checks _ List.mem_cons_self) sampled

/-- A computed run that passes a test. -/
theorem exists_of_serveAll {check : Record → Op → Bool} {conditions : Conditions}
    {steps : List (NodeStep × List Hint)} {before : World × List Record}
    {test : World × List Record → Bool}
    (starts : ∀ step ∈ steps, ∀ peers, conditions.starts step.1 peers)
    (checks : ∀ step ∈ steps, ∀ record op reply, check record op = true →
      conditions.allows step.1 record op reply)
    (passes : (serveAll check steps before).any test = true) :
    ∃ after, Runs (Step sampleNode TokenFormat.openJwt conditions) before
      (steps.map (some ·.1)) after ∧ test after = true := by
  cases served : serveAll check steps before with
  | none =>
      rw [served] at passes
      cases passes
  | some after =>
      rw [served] at passes
      exact ⟨after, runs_of_serveAll starts checks served, passes⟩

/-! ## Three peers in a room -/

def nicknameOf : ConnectionId → Nickname
  | 0 => "alice"
  | 1 => "bob"
  | _ => "carol"

def sessionOf : ConnectionId → SessionId
  | 0 => "session-1"
  | 1 => "session-2"
  | _ => "session-3"

/-- The hash of a session that is in no room. -/
def idle (connection : ConnectionId) : SessionHash :=
  ⟨Hash.set none "nickname" (nicknameOf connection), none⟩

/-- Three sessions have leave to join a room. -/
def invited : World :=
  let world := World.fresh.assignTo "room-1"
  { world with
    redis := { world.redis with
      sessions := ((Finmap.singleton (sessionOf 0) (idle 0)).insert (sessionOf 1) (idle 1)).insert
        (sessionOf 2) (idle 2) }
    connections := fun connection =>
      { capacity := 256
        context :=
          { sessionId := some (sessionOf connection)
            cachedSession := some ⟨nicknameOf connection, none⟩
            allowedIntent := some "join", allowedRoomId := some "room-1" } } }

/-- A hint with names. -/
def named (names : List String) : Hint := { names }

/-- A session joins the room of the others. -/
def joins (connection : ConnectionId) (lockOwner : String) (others : List Nickname) :
    NodeStep × List Hint :=
  (.message connection (.join (sessionOf connection) "room-1"),
    noHints 1 ++ named [lockOwner] :: noHints 11 ++ named (nicknameOf connection :: others) ::
      noHints 6 ++ named others :: noHints (others.length + 1))

def allJoin : List (NodeStep × List Hint) :=
  [joins 0 "lock-1" [], joins 1 "lock-2" ["alice"], joins 2 "lock-3" ["alice", "bob"]]

/-- The channel refuses. -/
def refuses : Hint := { succeeds := false }

/-- Alice's channel refuses a candidate of the SFU, then Bob's the news that she left. -/
def silently : NodeStep × List Hint :=
  (.sfuEvent ⟨"room-1", "alice", some (.iceCandidate "candidate:1" "0")⟩,
    noHints 1 ++ refuses :: noHints 8 ++ named ["bob", "carol"] :: refuses :: noHints 9)

/-- Carol leaves. -/
def leaves : NodeStep × List Hint :=
  (.message 2 (.leave (sessionOf 2) "room-1" none),
    noHints 14 ++ named ["alice", "bob"] :: noHints 6)

/-- The registered peers only are detached. -/
def detachesRegistered (record : Record) : Op → Bool
  | .peers _ (.unregister roomId nickname) => decide ((roomId, nickname) ∈ record.peers)
  | _ => true

/-- The test finds a reply that agrees. -/
theorem agrees_of_detachesRegistered {connection : ConnectionId} {request : ClientMessage}
    {record : Record} {op : Op} {reply : op.Reply} (checked : detachesRegistered record op = true) :
    Agrees (.message connection request) record op reply := by
  cases op with
  | peers node command =>
      cases command with
      | unregister => exact .inl (of_decide_eq_true checked)
      | _ => trivial
  | _ => trivial

/-- Carol leaves a room of three, and the others are told. -/
theorem exact_of_runs_leave : ∃ after,
    Runs (Step sampleNode TokenFormat.openJwt agreeing) (invited, [])
      ((allJoin ++ [leaves]).map (some ·.1)) after ∧
      (∃ record ∈ after.2, record.removed = [("room-1", "carol")]) ∧
      ∀ record ∈ after.2, record.Exact := by
  have message (step : NodeStep × List Hint) (member : step ∈ allJoin ++ [leaves]) :
      ∃ connection request, step.1 = .message connection request := by
    simp only [allJoin, joins, leaves, List.cons_append, List.nil_append, List.mem_cons,
      List.not_mem_nil, or_false] at member
    rcases member with rfl | rfl | rfl | rfl <;>
    · exact ⟨_, _, rfl⟩
  have passes : (serveAll detachesRegistered (allJoin ++ [leaves]) (invited, [])).any
      (fun after => after.2.any fun record => decide (record.removed = [("room-1", "carol")])) =
      true := by
    decide +kernel
  obtain ⟨after, run, passed⟩ := @exists_of_serveAll _ agreeing _ _ _ (fun step member _ => by
    obtain ⟨connection, request, same⟩ := message step member
    rw [same]
    trivial) (fun step member record op reply checked => by
    obtain ⟨connection, request, same⟩ := message step member
    rw [same]
    exact agrees_of_detachesRegistered checked) passes
  obtain ⟨record, member, left⟩ := List.any_eq_true.mp passed
  exact ⟨after, run, ⟨record, member, of_decide_eq_true left⟩, exact_of_runs run⟩

/-- **A candidate of the SFU for a peer whose channel is closed** removes Bob, whose
channel refuses the news, and Carol is never told. -/
theorem silently_removed : ∃ after,
    Runs (Step sampleNode TokenFormat.openJwt unconditional) (invited, [])
      ((allJoin ++ [silently]).map (some ·.1)) after ∧ ∃ record ∈ after.2, ¬ record.Exact := by
  have passes : (serveAll (fun _ _ => true) (allJoin ++ [silently]) (invited, [])).any
      (fun after => after.2.any fun record =>
        decide (("room-1", "bob") ∈ record.removed) &&
          (record.peers.lookup ("room-1", "carol")).isSome &&
          record.offers.all fun offer => decide (offer.message ≠ .participantLeft "bob")) =
      true := by
    decide +kernel
  obtain ⟨after, run, passed⟩ := @exists_of_serveAll _ unconditional _ _ _
    (fun _ _ _ => trivial) (fun _ _ _ _ _ _ => trivial) passes
  obtain ⟨record, member, tested⟩ := List.any_eq_true.mp passed
  simp only [Bool.and_eq_true, decide_eq_true_eq, List.all_eq_true] at tested
  obtain ⟨⟨removed, registered⟩, untold⟩ := tested
  refine ⟨after, run, record, member, fun exact => ?_⟩
  obtain ⟨entry, found⟩ := Option.isSome_iff_exists.mp registered
  obtain ⟨accepted, offered⟩ := exact.announced _ _ removed _ entry found
  exact untold _ offered rfl

end Callifornia.Signaling.Departures
