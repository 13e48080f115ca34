import Callifornia.Concurrency.Replay
import Callifornia.World

/-! # Purging a signaling node

A purge tells every client that the service is unavailable, removes the peers from
the SFUs and clears the registries. One flag keeps a second purge out and makes
WebSocket upgrades fail; the purge that sets it never resets it.
-/

namespace Callifornia.Signaling.Purge

open Concurrency Concurrency.System FiniteMap Store

/-- What a purge tells the clients. -/
structure ServiceUnavailable where
  dependency : String
  retryAfterMs : ℕ
  deriving DecidableEq

inductive DegradationReason
  | redisDown

def DegradationReason.asStr : DegradationReason → String
  | .redisDown => "redis"

/-- The parts of a node that a purge reads or clears. -/
structure Node where
  purging : Bool
  peers : PeerRegistry
  sessions : SessionStore
  /-- The SFUs the node holds a client for. -/
  clients : Finset Address
  /-- The notices queued for each connection. -/
  notices : ConnectionId → List ServiceUnavailable
  /-- Spawned purges that have not started. -/
  spawned : ℕ

/-- The atomic steps of a purge and of a WebSocket upgrade. -/
inductive Op
  | isPurging
  | tryBeginPurge
  | snapshotRooms
  | snapshotRoomsWithSfu
  | targets (roomId : RoomId)
  | trySend (sender : ConnectionId) (notice : ServiceUnavailable)
  | deletePeer (sfuAddr : Address) (roomId : RoomId) (nickname : Nickname) (reason : String)
  | clearPeers
  | clearSessions
  | clearSfu
  | spawnPurge

@[reducible] def Op.Reply : Op → Type
  | .isPurging | .tryBeginPurge | .trySend .. => Bool
  | .snapshotRooms => List (RoomId × List Nickname)
  | .snapshotRoomsWithSfu => List (RoomId × List (Nickname × Option Address))
  | .targets _ => List (Nickname × ConnectionId)
  | .deletePeer .. => Except SfuClientError PeerResponse
  | .clearPeers | .clearSessions | .clearSfu | .spawnPurge => Unit

/-- The effect of a step. Sends and calls to an SFU may fail. -/
def exec : (op : Op) → Node → op.Reply → Node → Prop
  | .isPurging, node, reply, after => reply = node.purging ∧ after = node
  | .tryBeginPurge, node, reply, after =>
      reply = !node.purging ∧ after = { node with purging := true }
  | .snapshotRooms, node, reply, after => node.peers.Snapshot reply ∧ after = node
  | .snapshotRoomsWithSfu, node, reply, after => node.peers.SnapshotWithSfu reply ∧ after = node
  | .targets roomId, node, reply, after => node.peers.Targets roomId none reply ∧ after = node
  | .trySend sender notice, node, reply, after =>
      after = if reply then
        { node with
          notices := Function.update node.notices sender (node.notices sender ++ [notice]) }
      else node
  | .deletePeer .., node, _, after => after = node
  | .clearPeers, node, _, after => after = { node with peers := ∅ }
  | .clearSessions, node, _, after => after = { node with sessions := ⟨∅, ∅⟩ }
  | .clearSfu, node, _, after => after = { node with clients := ∅ }
  | .spawnPurge, node, _, after => after = { node with spawned := node.spawned + 1 }

abbrev Call := Program Op Op.Reply

abbrev issue (op : Op) : Call op.Reply := Program.perform op

/-! ## The purge -/

def broadcastToRoom (roomId : RoomId) (notice : ServiceUnavailable) : Call Unit := do
  let targets ← issue (.targets roomId)
  targets.forM fun target => do let _ ← issue (.trySend target.2 notice)

/-- Remove the peers of one room from their SFUs; failures are only logged. -/
def deletePeers (room : RoomId × List (Nickname × Option Address)) : Call Unit :=
  room.2.forM fun participant =>
    match participant.2 with
    | some sfuAddr => do
        let _ ← issue (.deletePeer sfuAddr room.1 participant.1 "signaling_purge")
    | none => return ()

/-- A purge that has set the flag. -/
def purgeNode (reason : DegradationReason) : Call Unit := do
  let rooms ← issue .snapshotRoomsWithSfu
  rooms.forM fun room => broadcastToRoom room.1 ⟨reason.asStr, 5000⟩
  rooms.forM deletePeers
  issue .clearPeers
  issue .clearSessions
  issue .clearSfu

def runPurge (reason : DegradationReason) : Call Unit := do
  let begun ← issue .tryBeginPurge
  if !begun then return ()
  else purgeNode reason

/-- The `Purge` call: the purge itself is spawned; the number of rooms before it. -/
def purge : Call ℕ := do
  let rooms ← issue .snapshotRooms
  issue .spawnPurge
  return rooms.length

/-- A WebSocket upgrade; whether it is accepted. -/
def wsUpgrade : Call Bool := do
  if ← issue .isPurging then return false
  else return true

/-! ## Overlapping purges and upgrades -/

/-- How far a run is. -/
inductive Phase
  /-- A purge that has not tried to set the flag. -/
  | waiting
  /-- A purge that has set it. -/
  | won
  /-- A purge that found it set, a call or an upgrade. -/
  | other
  deriving DecidableEq

def Phase.advance : Phase → (op : Op) → op.Reply → Phase
  | .waiting, .tryBeginPurge, begun => if begun then .won else .other
  | phase, _, _ => phase

/-- Any number of calls, purges and upgrades, with the number of purges that have
completed. Connections change the registries at will. -/
def system : System Op Op.Reply where
  State := Node × ℕ
  Phase := Phase
  Result := Unit
  exec op before reply after := exec op before.1 reply after.1 ∧ after.2 = before.2
  advance := Phase.advance
  start before _ phase program after :=
    (phase = .other ∧ program = Functor.mapConst () purge ∧ after = before) ∨
    (phase = .other ∧ program = Functor.mapConst () wsUpgrade ∧ after = before) ∨
    ∃ reason, phase = .waiting ∧ program = runPurge reason ∧ (after = before ∨
      (0 < before.1.spawned ∧
        after = ({ before.1 with spawned := before.1.spawned - 1 }, before.2)))
  finish state phase _ := (state.1, if phase = .won then state.2 + 1 else state.2)
  discard _ _ := False
  environment before _ after := after.2 = before.2 ∧ after.1.purging = before.1.purging

/-- The flag is set from the first purge on, and only one purge ever sets it. -/
structure Flagged (state : Node × ℕ) (phases : Multiset Phase) : Prop where
  set : state.1.purging = true ↔ 0 < phases.count .won + state.2
  once : phases.count .won + state.2 ≤ 1

def outline : Outline system where
  guard := unguarded
  inv := Flagged
  asserts _ _ _ := True

variable {node after : Node} {completed : ℕ} {others : Multiset Phase} {phase : Phase}

/-- The flag is all that matters. -/
theorem Flagged.congr {phases : Multiset Phase} (flagged : Flagged (node, completed) phases)
    (same : after.purging = node.purging) : Flagged (after, completed) phases := by
  refine ⟨?_, flagged.once⟩
  rw [same]
  exact flagged.set

/-- A step that keeps the flag. -/
theorem exec_purging {op : Op} {reply : op.Reply} (step : exec op node reply after)
    (keeps : op ≠ .tryBeginPurge) : after.purging = node.purging := by
  cases op with
  | tryBeginPurge => exact absurd rfl keeps
  | isPurging | snapshotRooms | snapshotRoomsWithSfu | targets => rw [step.2]
  | trySend =>
      rw [show after = _ from step]
      split <;> rfl
  | _ => rw [show after = _ from step]

theorem inert_of_ne {op : Op} (keeps : op ≠ .tryBeginPurge) : outline.Inert phase op where
  asserts _ := trivial
  keeps := by
    intro state others reply after flagged effect
    obtain ⟨node, completed⟩ := state
    obtain ⟨after, _⟩ := after
    obtain ⟨step, rfl⟩ := effect
    exact Flagged.congr flagged (exec_purging step keeps)
  still reply := by
    cases phase with
    | waiting =>
        cases op with
        | tryBeginPurge => exact absurd rfl keeps
        | _ => rfl
    | won | other => rfl

/-- A program that does not try to set the flag stays where it is. -/
theorem safe_of_ne {α : Type} {program : Call α} (only : program.Only (· ≠ .tryBeginPurge)) :
    outline.Safe (fun last _ => last = phase) phase program :=
  Outline.Safe.of_only (only.mono fun _ keeps => inert_of_ne keeps)

theorem purgeNode_only (reason : DegradationReason) :
    (purgeNode reason).Only (· ≠ .tryBeginPurge) := by
  refine Program.Only.bind ⟨nofun, fun _ => trivial⟩ fun rooms => ?_
  refine Program.Only.bind (Program.Only.forM fun room _ => ?_) fun _ => ?_
  · refine Program.Only.bind ⟨nofun, fun _ => trivial⟩ fun targets => ?_
    exact Program.Only.forM fun target _ => ⟨nofun, fun _ => trivial⟩
  · refine Program.Only.bind (Program.Only.forM fun room _ => Program.Only.forM ?_) fun _ => ?_
    · intro participant _
      cases participant.2 with
      | none => trivial
      | some sfuAddr => exact ⟨nofun, fun _ => trivial⟩
    · exact ⟨nofun, fun _ => ⟨nofun, fun _ => ⟨nofun, fun _ => trivial⟩⟩⟩

/-- The step that tries to set the flag: it succeeds exactly when the flag is not set. -/
theorem Flagged.begin {begun : Bool}
    (flagged : Flagged (node, completed) (.waiting ::ₘ others)) (begins : begun = !node.purging) :
    Flagged ({ node with purging := true }, completed)
      ((if begun then Phase.won else .other) ::ₘ others) := by
  obtain ⟨set, once⟩ := flagged
  have apart : Phase.won ≠ .waiting := nofun
  simp only [Multiset.count_cons_of_ne apart] at set once
  subst begins
  cases purging : node.purging with
  | true =>
      have before := set.mp purging
      have apart : Phase.won ≠ .other := nofun
      refine ⟨iff_of_true rfl ?_, ?_⟩
      · simpa [Multiset.count_cons_of_ne apart] using before
      · simpa [Multiset.count_cons_of_ne apart] using once
  | false =>
      have none : Multiset.count .won others + completed = 0 :=
        Nat.eq_zero_of_not_pos fun some => Bool.eq_false_iff.mp purging (set.mpr some)
      refine ⟨iff_of_true rfl ?_, ?_⟩
      · simp only [Bool.not_false, ↓reduceIte, Multiset.count_cons_self]
        omega
      · simp only [Bool.not_false, ↓reduceIte, Multiset.count_cons_self]
        omega

/-- A purge ends as the one that set the flag or as one that did not. -/
theorem runPurge_safe (reason : DegradationReason) :
    outline.Safe (fun last _ => last ≠ .waiting) .waiting (runPurge reason) := by
  intro state others flagged _
  refine ⟨trivial, fun begun after effect => ?_⟩
  obtain ⟨node, completed⟩ := state
  obtain ⟨after, kept⟩ := after
  obtain ⟨⟨begins, changed⟩, same⟩ := effect
  obtain rfl : after = { node with purging := true } := changed
  obtain rfl : kept = completed := same
  refine ⟨Flagged.begin flagged begins, ?_⟩
  cases begun with
  | false => exact nofun
  | true =>
      refine (safe_of_ne (purgeNode_only reason)).mono ?_
      intro last _ same
      subst same
      exact nofun

/-- A run ends; the purge that set the flag is counted. -/
theorem Flagged.finish (flagged : Flagged (node, completed) (phase ::ₘ others)) :
    Flagged (node, if phase = .won then completed + 1 else completed) others := by
  obtain ⟨set, once⟩ := flagged
  by_cases won : phase = .won
  · subst won
    rw [Multiset.count_cons_self] at set once
    rw [if_pos rfl]
    refine ⟨set.trans (by omega), by omega⟩
  · rw [Multiset.count_cons_of_ne (Ne.symm won)] at set once
    rw [if_neg won]
    exact ⟨set, once⟩

/-- A run begins that has not set the flag. -/
theorem Flagged.start (flagged : Flagged (node, completed) others) (fresh : phase ≠ .won) :
    Flagged (node, completed) (phase ::ₘ others) := by
  obtain ⟨set, once⟩ := flagged
  constructor
  · rwa [Multiset.count_cons_of_ne fresh.symm]
  · rwa [Multiset.count_cons_of_ne fresh.symm]

theorem stable : outline.Stable where
  start := by
    intro before others phase program after started flagged
    obtain ⟨node, completed⟩ := before
    have finish (phase : Phase) (result : Unit) : outline.MayFinish phase result :=
      fun _ _ flagged => Flagged.finish flagged
    rcases started with ⟨rfl, rfl, rfl⟩ | ⟨rfl, rfl, rfl⟩ | ⟨reason, rfl, rfl, outcome⟩
    · refine ⟨Flagged.start flagged nofun, (safe_of_ne ?_).mono fun _ _ _ => finish _ _⟩
      exact ⟨nofun, fun _ => ⟨nofun, fun _ => trivial⟩⟩
    · refine ⟨Flagged.start flagged nofun, (safe_of_ne ?_).mono fun _ _ _ => finish _ _⟩
      exact ⟨nofun, fun purging => by cases purging <;> trivial⟩
    · refine ⟨Flagged.start ?_ nofun, (runPurge_safe reason).mono fun _ _ _ => finish _ _⟩
      rcases outcome with rfl | ⟨-, rfl⟩
      · exact flagged
      · exact Flagged.congr flagged rfl
  discard _ _ _ never := never.elim
  environment := by
    intro before others after changed flagged
    obtain ⟨node, completed⟩ := before
    obtain ⟨after, _⟩ := after
    obtain ⟨rfl, same⟩ := changed
    exact Flagged.congr flagged same

/-- A node that nobody has purged. -/
def begin (node : Node) : system.Pool := ⟨(node, (0 : ℕ)), []⟩

/-- Purges that set the flag and have completed. -/
def completions (pool : system.Pool) : ℕ := pool.state.2

/-- Some purge that set the flag is in progress. -/
def Running (pool : system.Pool) : Prop := ∃ thread ∈ pool.threads, thread.phase = Phase.won

/-- **The flag tells whether a purge is in progress exactly until one has completed.** -/
theorem isPurging_iff_running {node : Node} (idle : node.purging = false) {pool : system.Pool}
    (run : Reaches unguarded (begin node) pool) :
    (pool.state.1.purging = true ↔ Running pool) ↔ completions pool = 0 := by
  have initial : outline.Holds (begin node) := .of_quiescent
    ⟨iff_of_false (Bool.eq_false_iff.mp idle) (lt_irrefl 0), Nat.zero_le 1⟩
  obtain ⟨⟨set, once⟩, -⟩ := initial.reaches stable run
  have running : Running pool ↔ 0 < (phases pool.threads).count Phase.won := by
    refine Iff.trans ?_ Multiset.count_pos.symm
    exact List.mem_map.symm
  have completed : completions pool = pool.state.2 := rfl
  rw [running, set, completed]
  omega

/-! ## The first purge -/

/-- A node without rooms. -/
def idleNode : Node := ⟨false, ∅, ⟨∅, ∅⟩, ∅, fun _ => [], 0⟩

/-- The pool of a node with one run. -/
def one (node : Node) (completed : ℕ) (phase : Phase) (program : Call Unit) : system.Pool :=
  ⟨(node, completed), [⟨phase, program⟩]⟩

/-- The only run takes a step. -/
theorem Step.one (op : Op) {next : op.Reply → Call Unit} (reply : op.Reply)
    (effect : exec op node reply after) :
    Step unguarded (one node completed phase (.call op next))
      (one after completed (phase.advance op reply) (next reply)) :=
  @Step.command _ _ system unguarded _ _ [] [] _ _ _ _ trivial ⟨effect, rfl⟩

/-- The node while its first purge is in progress. -/
def purgedNode : Node := { idleNode with purging := true }

theorem reaches_won : Reaches unguarded (begin idleNode)
    (one purgedNode 0 .won (purgeNode .redisDown)) := by
  have start : Step unguarded (begin idleNode) (one idleNode 0 .waiting (runPurge .redisDown)) :=
    .start (.inr (.inr ⟨.redisDown, rfl, rfl, .inl rfl⟩))
  exact .tail (.single start) (Step.one .tryBeginPurge true ⟨rfl, rfl⟩)

theorem isPurging_iff_running_won :
    purgedNode.purging = true ↔ Running (one purgedNode 0 .won (purgeNode .redisDown)) :=
  (@isPurging_iff_running idleNode rfl _ reaches_won).mpr rfl

theorem snapshotWithSfu_empty : PeerRegistry.SnapshotWithSfu ∅ [] := by
  refine ⟨List.nodup_nil, fun roomId => iff_of_false List.not_mem_nil ?_, nofun⟩
  intro ⟨nickname, member⟩
  exact Finmap.notMem_empty ((PeerRegistry.mem_nicknames ∅).mp member)

theorem reaches_purged : Reaches unguarded (begin idleNode) ⟨(purgedNode, (1 : ℕ)), []⟩ := by
  let clearSfu : Call Unit := issue .clearSfu
  let clearSessions : Call Unit := issue .clearSessions >>= fun _ => clearSfu
  let clearPeers : Call Unit := issue .clearPeers >>= fun _ => clearSessions
  have snapshot : Step unguarded (one purgedNode 0 .won (purgeNode .redisDown))
      (one purgedNode 0 .won clearPeers) :=
    Step.one .snapshotRoomsWithSfu [] ⟨snapshotWithSfu_empty, rfl⟩
  have peers : Step unguarded (one purgedNode 0 .won clearPeers)
      (one purgedNode 0 .won clearSessions) :=
    Step.one .clearPeers () rfl
  have sessions : Step unguarded (one purgedNode 0 .won clearSessions)
      (one purgedNode 0 .won clearSfu) :=
    Step.one .clearSessions () rfl
  have clients : Step unguarded (one purgedNode 0 .won clearSfu)
      (one purgedNode 0 .won (.ret ())) :=
    Step.one .clearSfu () rfl
  have finish : @Step _ _ system unguarded (one purgedNode 0 .won (.ret ()))
      ⟨(purgedNode, (1 : ℕ)), []⟩ := @Step.finish _ _ system unguarded _ [] [] _ _
  exact reaches_won.tail snapshot |>.tail peers |>.tail sessions |>.tail clients |>.tail finish

/-- After its purge the node still counts as purging, and refuses every upgrade. -/
theorem purging_after_purge : ∃ pool, Reaches unguarded (begin idleNode) pool ∧
    pool.Quiescent ∧ ¬ (pool.state.1.purging = true ↔ Running pool) ∧
    ∀ accepted after, wsUpgrade.Runs exec pool.state.1 accepted after → accepted = false := by
  refine ⟨_, reaches_purged, rfl, fun same => ?_, fun accepted after upgrade => ?_⟩
  · obtain ⟨thread, member, -⟩ := same.mp rfl
    exact List.not_mem_nil member
  · obtain ⟨purging, _, ⟨answered, -⟩, refused⟩ := upgrade
    obtain rfl : purging = true := answered
    exact refused.1

end Callifornia.Signaling.Purge
