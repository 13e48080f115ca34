import Callifornia.Concurrency.Traces
import Callifornia.Seats

/-! # The end of a connection

A connection knows its session, and the session its nickname and its room. The peer of that
name in that room is taken out when the connection ends, whichever connection registered it,
and with it those who cannot be told.
-/

namespace Callifornia.Disconnect

open Concurrency Concurrency.Program FiniteMap Store Signaling

/-! ## Where a peer is -/

inductive Place
  | registry
  | members
  | sfu (sfuAddr : Address)

variable {node : NodeId} {before after roster : Roster} {roomId room : RoomId}
  {nickname name : Nickname} {place : Place} {sessionId : SessionId}

/-- The peer is there. -/
def At (node : NodeId) (roster : Roster) (roomId : RoomId) (nickname : Nickname) : Place → Prop
  | .registry => (roomId, nickname) ∈ roster.peers node
  | .members => (roomId, nickname) ∈ roster.members
  | .sfu sfuAddr => (sfuAddr, roomId, nickname) ∈ roster.sfuPeers

/-- The peer is unregistered, or removed from the members or at an SFU. -/
def TakenOut (node : NodeId) (before after : Roster) (roomId : RoomId) (nickname : Nickname) :
    Prop :=
  ∃ place, At node before roomId nickname place ∧ ¬ At node after roomId nickname place

/-- The peer has been registered by this connection. -/
def RegisteredBy (node : NodeId) (roster : Roster) (roomId : RoomId) (nickname : Nickname)
    (connection : ConnectionId) : Prop :=
  ∃ entry, (roster.peers node).lookup (roomId, nickname) = some entry ∧
    entry.sender = connection

theorem TakenOut.or (middle : Roster) (taken : TakenOut node before after roomId nickname) :
    TakenOut node before middle roomId nickname ∨ TakenOut node middle after roomId nickname := by
  obtain ⟨place, here, gone⟩ := taken
  by_cases between : At node middle roomId nickname place
  · exact .inr ⟨place, between, gone⟩
  · exact .inl ⟨place, here, between⟩

theorem not_takenOut_of_same (peers : after.peers node = before.peers node)
    (members : after.members = before.members) (sfuPeers : after.sfuPeers = before.sfuPeers) :
    ¬ TakenOut node before after roomId nickname := by
  rintro ⟨place, here, gone⟩
  refine gone ?_
  cases place with
  | registry =>
      rw [At, peers]
      exact here
  | members =>
      rw [At, members]
      exact here
  | sfu sfuAddr =>
      rw [At, sfuPeers]
      exact here

/-- Only this peer is detached. -/
theorem eq_of_takenOut_detach
    (taken : TakenOut node roster (roster.detach node room name) roomId nickname) :
    roomId = room ∧ nickname = name := by
  obtain ⟨place, here, gone⟩ := taken
  by_contra other
  have apart : (roomId, nickname) ≠ (room, name) := mt Prod.mk.inj other
  refine gone ?_
  cases place with
  | registry =>
      rw [At, Roster.peers_detach, if_pos rfl]
      exact (Finmap.mem_erase.mpr ⟨apart, here⟩)
  | members =>
      rw [At, Roster.members_detach]
      split
      · exact Finset.mem_erase.mpr ⟨apart, here⟩
      · exact here
  | sfu sfuAddr =>
      rw [At, Roster.sfuPeers_detach]
      split
      · exact here
      · exact Finset.mem_erase.mpr ⟨fun same => apart (Prod.mk.inj same).2, here⟩

theorem mem_of_takenOut_detachAll {nicknames : List Nickname}
    (taken : TakenOut node roster (roster.detachAll node room nicknames) roomId nickname) :
    roomId = room ∧ nickname ∈ nicknames := by
  induction nicknames generalizing roster with
  | nil => exact absurd taken (not_takenOut_of_same rfl rfl rfl)
  | cons name nicknames ih =>
      rcases taken.or (roster.detach node room name) with now | later
      · obtain ⟨rfl, rfl⟩ := eq_of_takenOut_detach now
        exact ⟨rfl, List.mem_cons_self⟩
      · obtain ⟨same, listed⟩ := ih later
        exact ⟨same, List.mem_cons_of_mem _ listed⟩

theorem not_takenOut_withSessions {change : SessionStore → SessionStore} :
    ¬ TakenOut node roster (roster.withSessions node change) roomId nickname :=
  not_takenOut_of_same Roster.peers_withSessions rfl rfl

theorem not_takenOut_setRoom :
    ¬ TakenOut node roster (roster.setRoom node sessionId none) roomId nickname := by
  refine not_takenOut_of_same ?_ rfl rfl
  rw [Roster.setRoom, Roster.peers_withSessions]
  rfl

/-- A session that leaves its room takes those with it that are to be detached. -/
theorem mem_of_takenOut_leave {victims : List Nickname}
    (taken : TakenOut node roster (roster.leave node sessionId room name victims) roomId nickname) :
    roomId = room ∧ (nickname = name ∨ nickname ∈ victims) := by
  have detached := (taken.or _).resolve_right not_takenOut_setRoom
  rcases detached.or (roster.detach node room name) with own | others
  · obtain ⟨rfl, rfl⟩ := eq_of_takenOut_detach own
    exact ⟨rfl, .inl rfl⟩
  · obtain ⟨same, listed⟩ := mem_of_takenOut_detachAll others
    exact ⟨same, .inr listed⟩

/-! ## Whom a cleanup takes out -/

/-- The channels that refuse a message. -/
def refusals : (op : Op) → op.Reply → List ConnectionId
  | .trySend sender _, false => [sender]
  | _, _ => []

/-- **Who is taken out.** The peer of the connection's own session, as the node recalls it, and
peers whose channel refused a message during the cleanup. -/
theorem takenOut_cleanupConnection (state : State) (connection : ConnectionId)
    {before after : World} {refused : List ConnectionId}
    (run : (cleanupConnection state connection).Runs (Logged World.exec refusals) (before, []) ()
      (after, refused))
    (taken : TakenOut state.node before.roster after.roster roomId nickname) :
    (∃ sessionId, before.roster.attached connection = some sessionId ∧
      before.roster.recalled state.node sessionId = some ⟨nickname, some roomId⟩) ∨
    ∃ sender ∈ refused, RegisteredBy state.node before.roster roomId nickname sender := by
  have accepts (sender : ConnectionId) (message : ServerMessage) (now : World)
      (reply : (Op.trySend sender message).Reply) (next : World)
      (step : World.exec (.trySend sender message) now reply next ∧
        refusals (.trySend sender message) reply ⊆ refused)
      (willing : sender ∉ refused) : reply = true := by
    cases accepted : reply with
    | true => rfl
    | false =>
        have listed := step.2
        rw [accepted] at listed
        exact absurd (listed List.mem_cons_self) willing
  have outcome : CleanupOutcome state connection (fun _ sender => sender ∉ refused)
      before.roster after.roster :=
    (cleanupConnection_ensures (fun _ _ _ _ step => step.1) accepts state connection).holds ()
      after run.unlogged
  generalize before.roster = start at taken outcome ⊢
  generalize after.roster = last at taken outcome
  cases outcome with
  | unattached _ => exact absurd taken (not_takenOut_of_same rfl rfl rfl)
  | outside _ _ => exact absurd taken not_takenOut_withSessions
  | @inside sessionId session place victims attached recalled inside refusing =>
      have left := (taken.or _).resolve_right not_takenOut_withSessions
      obtain ⟨same, own | victim⟩ := mem_of_takenOut_leave left
      · refine .inl ⟨sessionId, attached, recalled.trans (congrArg some ?_)⟩
        rw [own, same, ← inside]
      · obtain ⟨entry, found, refuses⟩ := refusing nickname victim
        subst same
        exact .inr ⟨entry.sender, not_not.mp refuses, entry, found, rfl⟩

/-! ## Two connections of one session -/

/-- Alice creates a room, and attaches a second connection to her session. -/
def secondTab : List (Seats.Happening × List Hint) :=
  Seats.together.take 3 ++
    [(.message 1 (.attach (Names.createToken "token-2" "session-1" "alice")), noHints 11)]

/-- The second connection ends. -/
theorem secondTab_ends : ∃ before after,
    Runs (Seats.system Seats.sampleConfig TokenFormat.openJwt sampleNode Seats.Accepted).Step
      Seats.smallWorld (secondTab.map (some ·.1)) before ∧
    (cleanupConnection sampleNode 1).Runs Seats.Smooth before () after ∧
    RegisteredBy sampleNode.node before.roster "room-1" "alice" 0 ∧
    TakenOut sampleNode.node before.roster after.roster "room-1" "alice" := by
  let entry (world : World) : Option PeerEntry :=
    (world.roster.peers sampleNode.node).lookup ("room-1", "alice")
  let gone (_ : Unit) (after : World) : Bool := decide (entry after = none)
  have passes : ((Seats.system Seats.sampleConfig TokenFormat.openJwt sampleNode
      Seats.Accepted).follow (fun _ => Seats.sampleSmooth) (fun _ _ => true) secondTab
        Seats.smallWorld).any (fun before =>
          decide ((entry before).map PeerEntry.sender = some 0) &&
          ((cleanupConnection sampleNode 1).follow Seats.sampleSmooth (noHints 26) before).any
            fun outcome => gone outcome.1 outcome.2) = true := by
    decide +kernel
  obtain ⟨before, run, passed⟩ :=
    Turns.exists_of_follow Seats.sampleSmooth_sound (fun _ _ _ => trivial) passes
  obtain ⟨registered, ends⟩ := Bool.and_eq_true_iff.mp passed
  obtain ⟨⟨⟩, after, cleaned, absent⟩ :=
    Program.exists_of_follow (Seats.sampleSmooth_sound (.disconnect 1)) ends
  obtain ⟨known, found, sender⟩ := Option.map_eq_some_iff.mp (of_decide_eq_true registered)
  refine ⟨before, after, run, cleaned, ⟨known, found, sender⟩, .registry, ?_, ?_⟩
  · exact Finmap.mem_of_lookup_eq_some found
  · exact Finmap.lookup_eq_none.mp (of_decide_eq_true absent)

/-- **It takes out the peer of the first.** -/
theorem takenOut_secondTab : ∃ before after,
    Runs (Seats.system Seats.sampleConfig TokenFormat.openJwt sampleNode Seats.Accepted).Step
      Seats.smallWorld (secondTab.map (some ·.1)) before ∧
    (cleanupConnection sampleNode 1).Runs Seats.Smooth before () after ∧
    TakenOut sampleNode.node before.roster after.roster "room-1" "alice" ∧
    ¬ RegisteredBy sampleNode.node before.roster "room-1" "alice" 1 := by
  obtain ⟨before, after, run, cleaned, ⟨entry, found, sender⟩, taken⟩ := secondTab_ends
  refine ⟨before, after, run, cleaned, taken, fun ⟨other, same, another⟩ => ?_⟩
  obtain rfl := Option.some.inj (found.symm.trans same)
  exact absurd (sender.symm.trans another) (by decide)

theorem takenOut_cleanup_secondTab : ∃ before after refused,
    (cleanupConnection sampleNode 1).Runs (Logged World.exec refusals) (before, []) ()
      (after, refused) ∧
    ((∃ sessionId, before.roster.attached 1 = some sessionId ∧
      before.roster.recalled sampleNode.node sessionId = some ⟨"alice", some "room-1"⟩) ∨
    ∃ sender ∈ refused, RegisteredBy sampleNode.node before.roster "room-1" "alice" sender) := by
  obtain ⟨before, after, -, cleaned, -, taken⟩ := secondTab_ends
  have logs : ∃ refused, (cleanupConnection sampleNode 1).Runs (Logged World.exec refusals)
      (before, []) () (after, refused) := (cleaned.mono Signaling.exec_of_replying).logged []
  obtain ⟨refused, run⟩ := logs
  exact ⟨before, after, refused, run, takenOut_cleanupConnection sampleNode 1 run taken⟩

end Callifornia.Disconnect
