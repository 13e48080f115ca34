import Callifornia.Concurrency.Sequential
import Callifornia.Concurrency.Transition
import Callifornia.Replay
import Callifornia.Signaling.Handlers
import Callifornia.Signaling.SfuEvents

/-! # Departures and their announcements

A signaling node takes steps: it handles a message of a client, the end of a connection
or an event of an SFU, each of them alone. A step may take peers out of rooms and may
offer `ParticipantLeft` to others, on five paths. Where they agree, the departures that
a step announces are those that happened in it.
-/

namespace Callifornia.Signaling.Departures

open Concurrency Concurrency.Program FiniteMap Store

/-! ## What a step does to the peers -/

/-- A message offered to the channel of a peer. -/
structure Offer where
  roomId : RoomId
  sender : ConnectionId
  message : ServerMessage
  accepted : Bool
  deriving DecidableEq

/-- What a step has done to the peers so far. -/
structure Journal where
  /-- The room whose peers were looked up last. -/
  room : RoomId := ""
  offers : List Offer := []
  removed : List (RoomId × Nickname) := []

/-- Write an operation down. A peer is removed if it was registered. -/
def Journal.note (world : World) (journal : Journal) : (op : Op) → op.Reply → Journal
  | .peers _ (.targets roomId _), _ | .peers _ (.sender roomId _), _ =>
      { journal with room := roomId }
  | .peers node (.unregister roomId nickname), _ =>
      if (roomId, nickname) ∈ (world.nodes node).peers then
        { journal with removed := (roomId, nickname) :: journal.removed }
      else journal
  | .trySend sender message, accepted =>
      { journal with offers := ⟨journal.room, sender, message, accepted⟩ :: journal.offers }
  | _, _ => journal

/-- What a step has offered and whom it has removed, with the registry as it is now. -/
structure Record where
  peers : PeerRegistry
  offers : List Offer
  removed : List (RoomId × Nickname)

/-- The record of a node. -/
def record (node : NodeId) (state : World × Journal) : Record :=
  ⟨(state.1.nodes node).peers, state.2.offers, state.2.removed⟩

namespace Record

/-- The channel has been offered this message for a room. -/
def Offered (record : Record) (roomId : RoomId) (sender : ConnectionId) (message : ServerMessage) :
    Prop :=
  ∃ accepted, ⟨roomId, sender, message, accepted⟩ ∈ record.offers

/-- **The departures announced are those that happened.** -/
structure Exact (record : Record) : Prop where
  /-- Whoever is still registered in a room has been told who left it. -/
  announced : ∀ roomId nickname, (roomId, nickname) ∈ record.removed → ∀ other entry,
    record.peers.lookup (roomId, other) = some entry →
      record.Offered roomId entry.sender (.participantLeft nickname)
  /-- Whoever is announced to have left has been removed. -/
  happened : ∀ offer ∈ record.offers, ∀ nickname, offer.message = .participantLeft nickname →
    (offer.roomId, nickname) ∈ record.removed

end Record

/-! ## The steps of a node -/

/-- The deployment does not settle this reply: a channel may be full or closed at any
time, and a call may fail. -/
def Unsettled : (op : Op) → op.Reply → Prop
  | .trySend .., _ => True
  | .redis _, .error _ | .createPeer .., .error _ | .deletePeer .., .error _
  | .handleSdp .., .error _ | .addIceCandidate .., .error _ => True
  | _, _ => False

/-- The effect of an operation. A call that fails may have taken effect. -/
def Happens (op : Op) (before : World) (reply : op.Reply) (after : World) : Prop :=
  World.exec op before reply after ∨ Unsettled op reply ∧ after.nodes = before.nodes

/-- An operation, written down, when `allows` holds of the record before it. -/
def Notes (node : NodeId) (allows : Record → (op : Op) → op.Reply → Prop) (op : Op)
    (before : World × Journal) (reply : op.Reply) (after : World × Journal) : Prop :=
  allows (record node before) op reply ∧ Happens op before.1 reply after.1 ∧
    after.2 = before.2.note before.1 op reply

/-- What a signaling node does at a time. -/
inductive NodeStep
  | message (connection : ConnectionId) (request : ClientMessage)
  | disconnect (connection : ConnectionId)
  | sfuEvent (event : SfuEvent)

section

variable (state : State) (jwt : Jwt)

/-- The handler of a step. -/
def NodeStep.program : NodeStep → Call Unit
  | .message connection request => do let _ ← handleText state connection jwt request
  | .disconnect connection => cleanupConnection state connection
  | .sfuEvent event => handleSfuEvent state event

/-- What is assumed of the steps of a run. -/
structure Conditions where
  /-- When a step may start. -/
  starts : NodeStep → PeerRegistry → Prop
  /-- When a step may go on with an operation. -/
  allows : NodeStep → Record → (op : Op) → op.Reply → Prop

/-- A run of the node keeps the record of each step, the latest first. Between two steps
anything may happen that registers nobody: clients receive their messages, other services
work, rooms of a lost SFU are closed, the node is purged. -/
inductive Step (conditions : Conditions) :
    Option NodeStep → World × List Record → World × List Record → Prop
  | served {step : NodeStep} {before after : World} {journal : Journal} {records : List Record} :
      conditions.starts step (before.nodes state.node).peers →
      (step.program state jwt).Runs (Notes state.node (conditions.allows step)) (before, {}) ()
        (after, journal) →
      Step conditions (some step) (before, records)
        (after, record state.node (after, journal) :: records)
  | elsewhere {before after : World} {records : List Record} :
      (∀ key entry, (after.nodes state.node).peers.lookup key = some entry →
        (before.nodes state.node).peers.lookup key = some entry) →
      Step conditions none (before, records) (after, records)

end

/-- Nothing is assumed. -/
def unconditional : Conditions where
  starts _ _ := True
  allows _ _ _ _ := True

/-- The operation does not go wrong on one of the paths. -/
def Agrees : NodeStep → Record → (op : Op) → op.Reply → Prop
  -- Peers whose channel refuses an announcement of an SFU event are detached silently,
  -- which nobody notices if all refuse it.
  | .sfuEvent _, record, .trySend _ (.participantLeft nickname), accepted =>
      ∀ offer ∈ record.offers, offer.message = .participantLeft nickname →
        offer.accepted = accepted
  -- Who leaves is announced whether registered or not.
  | .message .., record, .peers _ (.unregister roomId nickname), _
  | .disconnect _, record, .peers _ (.unregister roomId nickname), _ =>
      (roomId, nickname) ∈ record.peers ∨ (roomId, nickname) ∈ record.removed ∨
        PeerRegistry.nicknames record.peers roomId = ∅
  | _, _, _, _ => True

/-- The paths agree: a participant that an SFU has lost is the only peer of its room, and
no operation goes wrong. -/
def agreeing : Conditions where
  starts
    | .sfuEvent ⟨roomId, participantId, some .peerDisconnected⟩, peers =>
        participantId = "" ∨ PeerRegistry.nicknames peers roomId ⊆ {participantId}
    | _, _ => True
  allows := Agrees

/-! ## What an operation does to the record -/

namespace Record

/-- A peer is registered. -/
def register (record : Record) (roomId : RoomId) (nickname : Nickname) (entry : PeerEntry) :
    Record :=
  { record with peers := record.peers.insert (roomId, nickname) entry }

/-- A peer is removed, if it is registered. -/
def unregister (record : Record) (roomId : RoomId) (nickname : Nickname) : Record where
  peers := record.peers.erase (roomId, nickname)
  offers := record.offers
  removed :=
    if (roomId, nickname) ∈ record.peers then (roomId, nickname) :: record.removed
    else record.removed

/-- A message is offered. -/
def offer (record : Record) (offer : Offer) : Record :=
  { record with offers := offer :: record.offers }

end Record

namespace Record

/-- A message has been offered to some peers of a room, of whom these refused. -/
structure Sent (roomId : RoomId) (message : ServerMessage)
    (targets : List (Nickname × ConnectionId))
    (stale : List Nickname) (before after : Record) : Prop where
  peers : after.peers = before.peers
  removed : after.removed = before.removed
  kept : ∀ offer ∈ before.offers, offer ∈ after.offers
  reached : ∀ target ∈ targets, after.Offered roomId target.2 message
  fresh : ∀ offer ∈ after.offers, offer ∈ before.offers ∨
    offer.roomId = roomId ∧ offer.message = message ∧ targets ≠ []
  refused : ∀ nickname ∈ stale, nickname ∈ targets.map Prod.fst

/-- A message has been offered to all peers of a room but one. -/
def Broadcast (roomId : RoomId) (exceptNickname : Option Nickname) (message : ServerMessage)
    (stale : List Nickname) (before after : Record) : Prop :=
  ∃ targets, PeerRegistry.Targets before.peers roomId exceptNickname targets ∧
    Sent roomId message targets stale before after

variable {roomId : RoomId} {message : ServerMessage} {before middle after : Record}

/-- To nobody nothing is offered. -/
theorem Sent.nil : Sent roomId message [] [] before before :=
  ⟨rfl, rfl, fun _ member => member, nofun, fun _ member => .inl member, nofun⟩

/-- The first of the targets, and the others. -/
theorem Sent.cons {target : Nickname × ConnectionId} {targets : List (Nickname × ConnectionId)}
    {stale : List Nickname} {accepted : Bool}
    (sent : Sent roomId message targets stale
      (before.offer ⟨roomId, target.2, message, accepted⟩) after) :
    Sent roomId message (target :: targets) (if accepted then stale else target.1 :: stale) before
      after where
  peers := sent.peers
  removed := sent.removed
  kept offer member := sent.kept offer (List.mem_cons_of_mem _ member)
  reached other member := by
    rcases List.mem_cons.mp member with rfl | member
    · exact ⟨accepted, sent.kept _ List.mem_cons_self⟩
    · exact sent.reached other member
  fresh offer member := by
    rcases sent.fresh offer member with earlier | ⟨room, text, -⟩
    · rcases List.mem_cons.mp earlier with rfl | earlier
      · exact .inr ⟨rfl, rfl, List.cons_ne_nil _ _⟩
      · exact .inl earlier
    · exact .inr ⟨room, text, List.cons_ne_nil _ _⟩
  refused nickname member := by
    rw [List.map_cons, List.mem_cons]
    split at member
    · exact .inr (sent.refused nickname member)
    · exact (List.mem_cons.mp member).imp_right (sent.refused nickname)

/-- Who refused a broadcast is registered. -/
theorem Broadcast.registered {exceptNickname : Option Nickname} {stale : List Nickname}
    (broadcast : Broadcast roomId exceptNickname message stale before after)
    {nickname : Nickname} (member : nickname ∈ stale) :
    exceptNickname ≠ some nickname ∧ (roomId, nickname) ∈ before.peers := by
  obtain ⟨targets, ⟨-, all⟩, sent⟩ := broadcast
  obtain ⟨⟨_, sender⟩, target, rfl⟩ := List.mem_map.mp (sent.refused nickname member)
  obtain ⟨other, entry, found, -⟩ := (all _ _).mp target
  exact ⟨other, Finmap.mem_of_lookup_eq_some found⟩

/-- A broadcast reaches every peer but one. -/
theorem Broadcast.reached {exceptNickname : Option Nickname} {stale : List Nickname}
    (broadcast : Broadcast roomId exceptNickname message stale before after)
    {nickname : Nickname} {entry : PeerEntry} (other : exceptNickname ≠ some nickname)
    (found : before.peers.lookup (roomId, nickname) = some entry) :
    after.Offered roomId entry.sender message := by
  obtain ⟨targets, ⟨-, all⟩, sent⟩ := broadcast
  exact sent.reached (nickname, entry.sender) ((all _ _).mpr ⟨other, entry, found, rfl⟩)

/-- An offer of a broadcast is for a registered peer. -/
theorem Broadcast.fresh {exceptNickname : Option Nickname} {stale : List Nickname}
    (broadcast : Broadcast roomId exceptNickname message stale before after)
    {offer : Offer} (member : offer ∈ after.offers) : offer ∈ before.offers ∨
      offer.roomId = roomId ∧ offer.message = message ∧
        ∃ nickname, exceptNickname ≠ some nickname ∧ (roomId, nickname) ∈ before.peers := by
  obtain ⟨targets, ⟨-, all⟩, sent⟩ := broadcast
  rcases sent.fresh offer member with earlier | ⟨room, text, some⟩
  · exact .inl earlier
  · obtain ⟨⟨nickname, sender⟩, target⟩ := List.exists_mem_of_ne_nil _ some
    obtain ⟨other, entry, found, -⟩ := (all _ _).mp target
    exact .inr ⟨room, text, nickname, other, Finmap.mem_of_lookup_eq_some found⟩

end Record

/-- The operation concerns no peer. -/
def Quiet : Op → Prop
  | .peers .. | .trySend .. => False
  | _ => True

section Operations

variable {state : State} {allows : Record → (op : Op) → op.Reply → Prop}
  {before : World × Journal} {α ε : Type}

/-- What a part of a handler ensures. -/
abbrev Yields (state : State) (allows : Record → (op : Op) → op.Reply → Prop) (program : Call α)
    (before : World × Journal) (post : α → World × Journal → Prop) : Prop :=
  program.Ensures (Notes state.node allows) before post

/-- A registry is changed by its own operations only. -/
theorem exec_peers {op : Op} {world after : World} {reply : op.Reply} (quiet : Quiet op)
    (step : World.exec op world reply after) (node : NodeId) :
    (after.nodes node).peers = (world.nodes node).peers := by
  cases op with
  | peers | trySend => exact quiet.elim
  | sessions =>
      obtain ⟨_, _, rfl⟩ := step
      exact World.peers_setSessions ..
  | _ => rw [World.exec_nodes step id]

/-- A quiet step leaves the registry. -/
theorem happens_peers {op : Op} {world after : World} {reply : op.Reply} (quiet : Quiet op)
    (step : Happens op world reply after) (node : NodeId) :
    (after.nodes node).peers = (world.nodes node).peers := by
  rcases step with step | ⟨-, same⟩
  · exact exec_peers quiet step node
  · rw [same]

/-- A quiet step is not recorded. -/
theorem record_quiet {node : NodeId} {op : Op} {after : World × Journal} {reply : op.Reply}
    (quiet : Quiet op) (step : Notes node allows op before reply after) :
    record node after = record node before := by
  obtain ⟨-, happens, noted⟩ := step
  have unwritten : before.2.note before.1 op reply = before.2 := by
    cases op with
    | peers | trySend => exact quiet.elim
    | _ => rfl
  unfold record
  rw [noted, unwritten, happens_peers quiet happens]

/-- A part that concerns no peer keeps the record. -/
theorem yields_quiet {program : Call α} (only : program.Only Quiet) :
    Yields state allows program before fun _ after =>
      record state.node after = record state.node before := by
  refine only.ensures (fun op middle reply after quiet same step => ?_) rfl
  exact (record_quiet quiet step).trans same

/-- One step yields what each of its effects yields. -/
theorem yields_issue {op : Op} {post : op.Reply → World × Journal → Prop}
    (effect : ∀ reply after, Notes state.node allows op before reply after → post reply after) :
    Yields state allows (issue op) before post :=
  ensures_call.mpr fun reply after step => ensures_ret.mpr (effect reply after step)

/-- The targets that are read are the registered peers of the room. -/
theorem yields_targets (roomId : RoomId) (exceptNickname : Option Nickname) :
    Yields state allows (issue (.peers state.node (.targets roomId exceptNickname))) before
      fun targets after =>
        PeerRegistry.Targets (record state.node before).peers roomId exceptNickname targets ∧
          record state.node after = record state.node before ∧ after.2.room = roomId := by
  apply yields_issue
  rintro targets ⟨world, journal⟩ ⟨-, happens, rfl⟩
  obtain ⟨_, ⟨all, rfl⟩, rfl⟩ := happens.resolve_right fun failed => failed.1
  refine ⟨all, ?_, rfl⟩
  unfold record
  simp only [World.setNode, Function.update_self, Journal.note]

/-- The sender that is read is that of the registered peer. -/
theorem yields_sender (roomId : RoomId) (nickname : Nickname) :
    Yields state allows (issue (.peers state.node (.sender roomId nickname))) before
      fun sender after =>
        sender = ((record state.node before).peers.lookup (roomId, nickname)).map
            PeerEntry.sender ∧
          record state.node after = record state.node before := by
  apply yields_issue
  rintro sender ⟨world, journal⟩ ⟨-, happens, rfl⟩
  obtain ⟨_, ⟨found, rfl⟩, rfl⟩ := happens.resolve_right fun failed => failed.1
  refine ⟨found, ?_⟩
  unfold record
  simp only [World.setNode, Function.update_self, Journal.note]

/-- An offer is recorded, accepted or not. -/
theorem yields_trySend (sender : ConnectionId) (message : ServerMessage) :
    Yields state allows (issue (.trySend sender message)) before fun accepted after =>
      allows (record state.node before) (.trySend sender message) accepted ∧
        record state.node after = (record state.node before).offer
          ⟨before.2.room, sender, message, accepted⟩ ∧
        after.2.room = before.2.room := by
  apply yields_issue
  rintro accepted ⟨world, journal⟩ ⟨allowed, happens, rfl⟩
  have kept : world.nodes = before.1.nodes := by
    rcases happens with step | ⟨-, same⟩
    · exact World.exec_nodes step id
    · exact same
  refine ⟨allowed, ?_, rfl⟩
  unfold record
  simp only [kept, Journal.note, Record.offer]

/-- A removal is recorded if the peer was there. -/
theorem yields_unregister (roomId : RoomId) (nickname : Nickname) :
    Yields state allows (state.unregister roomId nickname) before fun _ after =>
      allows (record state.node before) (.peers state.node (.unregister roomId nickname)) () ∧
        record state.node after = (record state.node before).unregister roomId nickname := by
  apply yields_issue
  rintro _ ⟨world, journal⟩ ⟨allowed, happens, rfl⟩
  obtain ⟨_, rfl, rfl⟩ := happens.resolve_right fun failed => failed.1
  refine ⟨allowed, ?_⟩
  unfold record Record.unregister
  by_cases member : (roomId, nickname) ∈ (before.1.nodes state.node).peers
  · simp only [World.setNode, Function.update_self, Journal.note, member, if_true]
  · simp only [World.setNode, Function.update_self, Journal.note, member, if_false]

/-- A registration is recorded. -/
theorem yields_register (roomId : RoomId) (nickname : Nickname) (entry : PeerEntry) :
    Yields state allows (state.register roomId nickname entry) before fun _ after =>
      record state.node after = (record state.node before).register roomId nickname entry := by
  apply yields_issue
  rintro _ ⟨world, journal⟩ ⟨-, happens, rfl⟩
  obtain ⟨_, rfl, rfl⟩ := happens.resolve_right fun failed => failed.1
  unfold record Record.register
  simp only [World.setNode, Function.update_self, Journal.note]

/-! ## Broadcasts and detached peers -/

/-- The message is offered to the targets in their order. -/
theorem yields_sendToEach {roomId : RoomId} {message : ServerMessage}
    {targets : List (Nickname × ConnectionId)} (room : before.2.room = roomId) :
    Yields state allows (State.sendToEach message targets) before fun stale after =>
      Record.Sent roomId message targets stale (record state.node before)
        (record state.node after) := by
  induction targets generalizing before with
  | nil => exact ensures_ret.mpr .nil
  | cons target targets ih =>
      apply (yields_trySend target.2 message).bind
      rintro accepted middle ⟨-, offered, kept⟩
      apply (ih (kept.trans room)).bind
      intro stale after sent
      rw [offered, room] at sent
      exact ensures_ret.mpr sent.cons

/-- A broadcast offers the message to the peers of the room. -/
theorem yields_broadcast (roomId : RoomId) (exceptNickname : Option Nickname)
    (message : ServerMessage) :
    Yields state allows (state.broadcastToRoom roomId exceptNickname message) before
      fun stale after => Record.Broadcast roomId exceptNickname message stale
        (record state.node before) (record state.node after) := by
  apply (yields_targets roomId exceptNickname).bind
  rintro targets middle ⟨all, same, room⟩
  apply (yields_sendToEach room).mono
  intro stale after sent
  rw [same] at sent
  exact ⟨targets, all, sent⟩

/-- What a handler does besides is quiet. -/
theorem converses_quiet (connection : ConnectionId) : Converses state connection Quiet := by
  constructor <;>
  · intros
    trivial

/-- Counting a connection is quiet. -/
theorem counts_quiet (connection : ConnectionId) : Counts state connection Quiet :=
  ⟨fun _ => trivial, fun _ => trivial⟩

/-- A peer that is detached is removed from the registry. -/
theorem yields_detachPeer (roomId : RoomId) (nickname : Nickname) (reason : String) :
    Yields state allows (state.detachPeer roomId nickname reason) before fun _ after =>
      allows (record state.node before) (.peers state.node (.unregister roomId nickname)) () ∧
        record state.node after = (record state.node before).unregister roomId nickname := by
  have quiet : Converses state 0 Quiet := converses_quiet 0
  have route : (State.routeBeforeDetach roomId).Only Quiet :=
    State.routeBeforeDetach_only (quiet.reads _ trivial) (quiet.reads _ trivial)
  apply (yields_quiet route).bind
  intro route first same
  apply (yields_unregister roomId nickname).bind
  rintro _ middle ⟨allowed, removed⟩
  rw [same] at allowed removed
  have rest : (do
      let roomEmpty ← State.detachMember roomId nickname
      State.detachFromSfu roomId nickname reason (route.bind RoomRoute.sfuGrpcAddr)
      State.closeIfEmpty roomId roomEmpty : Call Unit).Only Quiet := by
    refine Only.bind (State.detachMember_only (quiet.reads _ trivial) (quiet.reads _ trivial)
      (quiet.removes _ _) (quiet.reads _ trivial) (quiet.clears _)) fun roomEmpty => ?_
    refine Only.bind (State.detachFromSfu_only fun _ => quiet.deletes _ _ _ _) fun _ => ?_
    cases roomEmpty with
    | false => trivial
    | true => exact Only.bind (quiet.closeRoomBinding roomId) fun _ => trivial
  apply (yields_quiet rest).mono
  intro _ after same
  exact ⟨allowed, same.trans removed⟩

end Operations

/-! ## Announcing a departure after it and before it -/

namespace Record

variable {roomId : RoomId} {nickname : Nickname} {message : ServerMessage} {stale : List Nickname}
  {exceptNickname : Option Nickname} {before middle after : Record}

/-- What is unregistered was there, or is not removed. -/
theorem mem_unregister {key : RoomId × Nickname} :
    key ∈ (before.unregister roomId nickname).removed ↔
      key ∈ before.removed ∨ key = (roomId, nickname) ∧ key ∈ before.peers := by
  unfold unregister
  by_cases member : (roomId, nickname) ∈ before.peers
  · simp only [member, if_true, List.mem_cons]
    constructor
    · rintro (rfl | earlier)
      · exact .inr ⟨rfl, member⟩
      · exact .inl earlier
    · rintro (earlier | ⟨rfl, -⟩)
      · exact .inr earlier
      · exact .inl rfl
  · simp only [member, if_false]
    constructor
    · exact .inl
    · rintro (earlier | ⟨rfl, registered⟩)
      · exact earlier
      · exact absurd registered member

/-- The other entries stay. -/
theorem lookup_unregister {key : RoomId × Nickname} {entry : PeerEntry}
    (found : (before.unregister roomId nickname).peers.lookup key = some entry) :
    key ≠ (roomId, nickname) ∧ before.peers.lookup key = some entry := by
  have other : key ≠ (roomId, nickname) := by
    rintro rfl
    have gone : (before.peers.erase (roomId, nickname)).lookup (roomId, nickname) = none :=
      Finmap.lookup_erase ..
    rw [show (before.peers.erase (roomId, nickname)).lookup (roomId, nickname) = some entry from
      found] at gone
    cases gone
  exact ⟨other, (Finmap.lookup_erase_ne other).symm.trans found⟩

/-- A peer is registered, or this step has removed it. -/
def Known (record : Record) (roomId : RoomId) (nickname : Nickname) : Prop :=
  (roomId, nickname) ∈ record.peers ∨ (roomId, nickname) ∈ record.removed

/-- The participants that are known stay known. -/
theorem Known.unregister {other : Nickname} (known : before.Known roomId other) :
    (before.unregister roomId nickname).Known roomId other := by
  rcases known with registered | removed
  · by_cases same : other = nickname
    · subst same
      exact .inr (mem_unregister.mpr (.inr ⟨rfl, registered⟩))
    · refine .inl (Finmap.mem_erase.mpr ⟨?_, registered⟩)
      exact fun equal => same (congrArg Prod.snd equal)
  · exact .inr (mem_unregister.mpr (.inl removed))

/-- Whoever is known and detached has been removed. -/
theorem Known.removed (known : before.Known roomId nickname) :
    (roomId, nickname) ∈ (before.unregister roomId nickname).removed := by
  rw [mem_unregister]
  rcases known with registered | removed
  · exact .inr ⟨rfl, registered⟩
  · exact .inl removed

/-- A broadcast leaves the registry. -/
theorem Broadcast.peers (broadcast : Broadcast roomId exceptNickname message stale before after) :
    after.peers = before.peers := by
  obtain ⟨_, -, sent⟩ := broadcast
  exact sent.peers

/-- A broadcast removes nobody. -/
theorem Broadcast.removed (broadcast : Broadcast roomId exceptNickname message stale before after) :
    after.removed = before.removed := by
  obtain ⟨_, -, sent⟩ := broadcast
  exact sent.removed

/-- What was offered before a broadcast was offered. -/
theorem Broadcast.offered (broadcast : Broadcast roomId exceptNickname message stale before after)
    {room : RoomId} {sender : ConnectionId} {earlier : ServerMessage}
    (offered : before.Offered room sender earlier) : after.Offered room sender earlier := by
  obtain ⟨_, -, sent⟩ := broadcast
  obtain ⟨accepted, member⟩ := offered
  exact ⟨accepted, sent.kept _ member⟩

/-- A broadcast makes nobody unknown. -/
theorem Broadcast.known (broadcast : Broadcast roomId exceptNickname message stale before after)
    {room : RoomId} {other : Nickname} (known : before.Known room other) :
    after.Known room other := by
  unfold Known
  rw [broadcast.peers, broadcast.removed]
  exact known

/-- A step starts with nothing to announce. -/
theorem Exact.opening (peers : PeerRegistry) : Exact ⟨peers, [], []⟩ :=
  ⟨nofun, nofun⟩

/-- An offer of another message leaves the account exact. -/
theorem Exact.offer {offer : Offer} (exact : before.Exact)
    (other : ∀ nickname, offer.message ≠ .participantLeft nickname) :
    (before.offer offer).Exact where
  announced room left member peer entry found := by
    obtain ⟨accepted, offered⟩ := exact.announced room left member peer entry found
    exact ⟨accepted, List.mem_cons_of_mem _ offered⟩
  happened offer member left told := by
    rcases List.mem_cons.mp member with rfl | earlier
    · exact absurd told (other left)
    · exact exact.happened offer earlier left told

/-- A broadcast of something else announces no departure. -/
theorem Exact.broadcast (exact : before.Exact)
    (broadcast : Broadcast roomId exceptNickname message stale before after)
    (other : ∀ nickname, message ≠ .participantLeft nickname) : after.Exact where
  announced room left member peer entry found := by
    rw [broadcast.removed] at member
    rw [broadcast.peers] at found
    exact broadcast.offered (exact.announced room left member peer entry found)
  happened offer member left told := by
    rw [broadcast.removed]
    rcases broadcast.fresh member with earlier | ⟨-, text, -⟩
    · exact exact.happened offer earlier left told
    · exact absurd (text.symm.trans told) (other left)

/-- A departure that is announced after it happened. -/
theorem Exact.leave (exact : before.Exact)
    (leaves : (roomId, nickname) ∈ (before.unregister roomId nickname).removed ∨
      PeerRegistry.nicknames before.peers roomId = ∅)
    (broadcast : Broadcast roomId (some nickname) (.participantLeft nickname) stale
      (before.unregister roomId nickname) after) : after.Exact where
  announced room left member peer entry found := by
    rw [broadcast.removed, mem_unregister] at member
    rw [broadcast.peers] at found
    obtain ⟨other, registered⟩ := lookup_unregister found
    rcases member with earlier | ⟨same, -⟩
    · exact broadcast.offered (exact.announced room left earlier peer entry registered)
    · obtain ⟨rfl, rfl⟩ := Prod.mk.inj same
      refine broadcast.reached ?_ found
      exact fun equal => other (congrArg (room, ·) (Option.some.inj equal).symm)
  happened offer member left told := by
    rw [broadcast.removed]
    rcases broadcast.fresh member with earlier | ⟨rfl, text, peer, -, registered⟩
    · exact mem_unregister.mpr (.inl (exact.happened offer earlier left told))
    · obtain rfl : nickname = left := ServerMessage.participantLeft.inj (text.symm.trans told)
      rcases leaves with removed | alone
      · exact removed
      · have listed := (PeerRegistry.mem_nicknames _).mpr (Finmap.mem_erase.mp registered).2
        rw [alone] at listed
        exact absurd listed (Finset.notMem_empty peer)

/-- A departure that is announced before it happens. -/
theorem Exact.sweep (exact : before.Exact) (known : before.Known roomId nickname)
    (broadcast : Broadcast roomId (some nickname) (.participantLeft nickname) stale before
      middle) : (middle.unregister roomId nickname).Exact where
  announced room left member peer entry found := by
    obtain ⟨other, registered⟩ := lookup_unregister found
    rw [mem_unregister, broadcast.removed] at member
    rw [broadcast.peers] at registered
    rcases member with earlier | ⟨same, -⟩
    · exact broadcast.offered (exact.announced room left earlier peer entry registered)
    · obtain ⟨rfl, rfl⟩ := Prod.mk.inj same
      refine broadcast.reached ?_ registered
      exact fun equal => other (congrArg (room, ·) (Option.some.inj equal).symm)
  happened offer member left told := by
    rcases broadcast.fresh member with earlier | ⟨rfl, text, -⟩
    · rw [mem_unregister, broadcast.removed]
      exact .inl (exact.happened offer earlier left told)
    · obtain rfl : nickname = left := ServerMessage.participantLeft.inj (text.symm.trans told)
      exact (broadcast.known known).removed

/-- Peers of a room have been removed without a word. -/
structure Cleared (roomId : RoomId) (nicknames : List Nickname) (before after : Record) : Prop where
  offers : after.offers = before.offers
  kept : ∀ key ∈ before.removed, key ∈ after.removed
  removed : ∀ key ∈ after.removed, key ∈ before.removed ∨ key.1 = roomId ∧ key.2 ∈ nicknames
  peers : ∀ key entry, after.peers.lookup key = some entry →
    before.peers.lookup key = some entry ∧ (key.1 = roomId → key.2 ∉ nicknames)

/-- Nobody is to be removed. -/
theorem Cleared.nil : Cleared roomId [] before before :=
  ⟨rfl, fun _ member => member, fun _ member => .inl member,
      fun _ _ found => ⟨found, fun _ => nofun⟩⟩

/-- The first one is removed, and then the others. -/
theorem Cleared.cons {nicknames : List Nickname}
    (cleared : Cleared roomId nicknames (before.unregister roomId nickname) after) :
    Cleared roomId (nickname :: nicknames) before after where
  offers := cleared.offers
  kept key member := cleared.kept key (mem_unregister.mpr (.inl member))
  removed key member := by
    rcases cleared.removed key member with earlier | same
    · rcases mem_unregister.mp earlier with earlier | ⟨rfl, -⟩
      · exact .inl earlier
      · exact .inr ⟨rfl, List.mem_cons_self⟩
    · exact .inr ⟨same.1, List.mem_cons_of_mem _ same.2⟩
  peers key entry found := by
    obtain ⟨kept, absent⟩ := cleared.peers key entry found
    obtain ⟨other, registered⟩ := lookup_unregister kept
    refine ⟨registered, fun same member => ?_⟩
    rcases List.mem_cons.mp member with first | member
    · exact other (Prod.ext same first)
    · exact absent same member

/-- Nobody has been removed, or nobody is left to be told. -/
theorem Exact.cleared {nicknames : List Nickname} (exact : before.Exact)
    (all : nicknames = [] ∨ ∀ other, (roomId, other) ∈ before.peers → other ∈ nicknames)
    (cleared : Cleared roomId nicknames before after) : after.Exact where
  announced room left member peer entry found := by
    obtain ⟨registered, absent⟩ := cleared.peers _ _ found
    rcases cleared.removed _ member with earlier | same
    · unfold Offered
      rw [cleared.offers]
      exact exact.announced room left earlier peer entry registered
    · obtain ⟨rfl, listed⟩ : room = roomId ∧ left ∈ nicknames := same
      rcases all with rfl | all
      · exact absurd listed List.not_mem_nil
      · exact absurd (all peer (Finmap.mem_of_lookup_eq_some registered)) (absent rfl)
  happened offer member left told := by
    rw [cleared.offers] at member
    exact cleared.kept _ (exact.happened offer member left told)

end Record

end Callifornia.Signaling.Departures
