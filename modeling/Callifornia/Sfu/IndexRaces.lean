import Callifornia.Concurrency.Replay
import Callifornia.Sfu.PeerIndex

/-! # The index of the runtime under concurrent calls

A call that removes a peer looks it up in one section and removes it by name in a
later one. The index stays exact while no other peer takes the name in between and
is listed where the removal does not look.
-/

namespace Callifornia.Sfu

open FiniteMap Concurrency Concurrency.System

/-! ## The calls of a runtime -/

inductive RuntimeCall.Call
  | addPeer (roomId : RoomId) (participantId : PeerId) (signalingId : SignalingId)
      (init : Except String Unit)
  | removePeer (roomId : RoomId) (participantId : PeerId)
  | removePeersBySignaling (signalingId : SignalingId)
  | findPeerSession (roomId : RoomId) (participantId : PeerId)

open RuntimeCall (Call)

/-- The program of a call, without its result. -/
def RuntimeCall.Call.program : Call → RuntimeCall Unit
  | .addPeer roomId participantId signalingId init => do
      let _ ← RuntimeCall.addPeer roomId participantId signalingId init
  | .removePeer roomId participantId => do
      let _ ← RuntimeCall.removePeer roomId participantId
  | .removePeersBySignaling signalingId => do
      let _ ← RuntimeCall.removePeersBySignaling signalingId
  | .findPeerSession roomId participantId => do
      let _ ← RuntimeCall.findPeerSession roomId participantId

/-- The peers a bulk removal has taken out of the index and still has to remove. -/
abbrev Taken := List (RoomId × PeerId)

/-- A bulk removal takes its peers and goes on to the next after each. -/
def Taken.advance (taken : Taken) : (step : Section) → step.Reply → Taken
  | .takeSignaling _, reply => reply.getD []
  | .findPeer .., none => taken.tail
  | .dropPeer .., _ => taken.tail
  | _, _ => taken

/-- Any number of calls at once. -/
def calls : System Section Section.Reply where
  State := SfuRuntime
  Phase := Taken
  Result := Unit
  exec := SfuRuntime.exec
  advance := Taken.advance
  start runtime _ taken program after :=
    after = runtime ∧ taken = [] ∧ ∃ call : Call, program = call.program
  finish runtime _ _ := runtime
  discard _ _ := False
  environment _ _ _ := False

/-- A peer that a removal takes out of its room is not listed, or listed under the
signaling node of the session that the removal has looked up. -/
def Unrenewed : calls.Guard := fun (runtime : SfuRuntime) _ step _ =>
  match step with
  | .removePeer roomId participantId session =>
      ∀ signalingId ∈ runtime.owner (roomId, participantId),
        (roomId, participantId) ∈ runtime.listed signalingId →
          session.map (·.signalingId) = some signalingId
  | .dropPeer roomId participantId =>
      ∀ signalingId ∈ runtime.owner (roomId, participantId),
        (roomId, participantId) ∉ runtime.listed signalingId
  | _ => True

/-- What is listed is there, and what is not listed is about to be removed. -/
structure Indexed (runtime : SfuRuntime) (taken : Multiset Taken) : Prop where
  listed : ∀ signalingId peer, peer ∈ runtime.listed signalingId →
    signalingId ≠ "" ∧ runtime.owner peer = some signalingId
  once : ∀ signalingId, (runtime.listed signalingId).Nodup
  covered : ∀ peer signalingId, runtime.owner peer = some signalingId → signalingId ≠ "" →
    peer ∈ runtime.listed signalingId ∨ ∃ left ∈ taken, peer ∈ left

namespace Indexed

variable {runtime after : SfuRuntime} {left : Taken} {others : Multiset Taken}

/-- With nothing taken out, the index is exact. -/
theorem exact (indexed : Indexed runtime 0) : runtime.Exact := by
  refine ⟨fun signalingId peer => ⟨indexed.listed signalingId peer, ?_⟩, indexed.once⟩
  intro ⟨named, own⟩
  rcases indexed.covered peer signalingId own named with listed | ⟨_, none, _⟩
  · exact listed
  · exact absurd none (Multiset.notMem_zero _)

/-- A peer that is not in its room need not be removed any more. -/
theorem skip {peer : RoomId × PeerId} {rest : Taken}
    (indexed : Indexed runtime ((peer :: rest) ::ₘ others)) (gone : runtime.owner peer = none) :
    Indexed runtime (rest ::ₘ others) := by
  refine ⟨indexed.listed, indexed.once, fun query signalingId own named => ?_⟩
  rcases indexed.covered query signalingId own named with listed | ⟨held, member, inside⟩
  · exact .inl listed
  · refine .inr ?_
    rcases Multiset.mem_cons.mp member with rfl | member
    · rcases List.mem_cons.mp inside with rfl | inside
      · rw [gone] at own
        cases own
      · exact ⟨rest, Multiset.mem_cons_self _ _, inside⟩
    · exact ⟨held, Multiset.mem_cons_of_mem member, inside⟩

/-- A peer leaves its room, and the index. -/
theorem remove {peer : RoomId × PeerId} {taken : Multiset Taken} (indexed : Indexed runtime taken)
    (owner : ∀ query, after.owner query = if query = peer then none else runtime.owner query)
    (listed : ∀ signalingId query, query ∈ after.listed signalingId ↔
      query ∈ runtime.listed signalingId ∧ query ≠ peer)
    (once : ∀ signalingId, (after.listed signalingId).Nodup) : Indexed after taken := by
  refine ⟨fun signalingId query member => ?_, once, fun query signalingId own named => ?_⟩
  · obtain ⟨member, other⟩ := (listed signalingId query).mp member
    rw [owner, if_neg other]
    exact indexed.listed signalingId query member
  · rw [owner] at own
    split at own
    · cases own
    · rename_i other
      rw [listed]
      exact (indexed.covered query signalingId own named).imp_left fun member => ⟨member, other⟩

/-- Removing a peer keeps the index, unless the peer has changed hands since it was found. -/
theorem removePeer {roomId : RoomId} {participantId : PeerId} {session : Option PeerSession}
    {reply : Bool} {taken : Multiset Taken} (indexed : Indexed runtime taken)
    (allowed : ∀ signalingId ∈ runtime.owner (roomId, participantId),
      (roomId, participantId) ∈ runtime.listed signalingId →
        session.map (·.signalingId) = some signalingId)
    (effect : SfuRuntime.exec (.removePeer roomId participantId session) runtime reply after) :
    Indexed after taken := by
  have spec := runtime.removePeer_spec roomId participantId session
  rw [← show (reply, after) = _ from effect] at spec
  dsimp only at spec
  refine indexed.remove spec.owner (spec.mem_listed fun signalingId member => ?_)
    fun signalingId => spec.once (indexed.once signalingId)
  have own := (indexed.listed signalingId _ member).2
  exact ⟨by rw [own]; exact Option.some_ne_none _, allowed signalingId own member⟩

/-- Dropping a peer that was taken out keeps the index, unless it is listed again. -/
theorem dropPeer {roomId : RoomId} {participantId : PeerId} {reply : Option Bool}
    {rest : Taken} (indexed : Indexed runtime (((roomId, participantId) :: rest) ::ₘ others))
    (allowed : ∀ signalingId ∈ runtime.owner (roomId, participantId),
      (roomId, participantId) ∉ runtime.listed signalingId)
    (effect : SfuRuntime.exec (.dropPeer roomId participantId) runtime reply after) :
    Indexed after (rest ::ₘ others) := by
  have spec := runtime.dropPeer_spec roomId participantId
  rw [← show (reply, after) = _ from effect] at spec
  dsimp only at spec
  have unlisted (signalingId : SignalingId) :
      (roomId, participantId) ∉ runtime.listed signalingId := fun member =>
    allowed signalingId (indexed.listed signalingId _ member).2 member
  have removed : Indexed after (((roomId, participantId) :: rest) ::ₘ others) := by
    refine indexed.remove spec.owner (fun signalingId query => ?_) fun signalingId => ?_
    · rw [SfuRuntime.listed_congr spec.index]
      refine ⟨fun member => ⟨member, ?_⟩, And.left⟩
      rintro rfl
      exact unlisted signalingId member
    · rw [SfuRuntime.listed_congr spec.index]
      exact indexed.once signalingId
  exact removed.skip (by rw [spec.owner, if_pos rfl])

/-- A node's entry taken out is held by the task that took it. -/
theorem takeSignaling {signalingId : SignalingId} {reply : Option Taken}
    (indexed : Indexed runtime ([] ::ₘ others))
    (effect : SfuRuntime.exec (.takeSignaling signalingId) runtime reply after) :
    Indexed after (reply.getD [] ::ₘ others) := by
  obtain ⟨toRemove, rooms, listed⟩ := runtime.takeSignaling_spec signalingId
  rw [← show (reply, after) = _ from effect] at toRemove rooms listed
  dsimp only at toRemove rooms listed
  have owner (peer : RoomId × PeerId) : after.owner peer = runtime.owner peer := by
    rw [SfuRuntime.owner, rooms]
    rfl
  refine ⟨fun query peer member => ?_, fun query => ?_, fun peer query own named => ?_⟩
  · rw [listed] at member
    split at member
    · cases member
    · rw [owner]
      exact indexed.listed query peer member
  · rw [listed]
    split
    · exact List.nodup_nil
    · exact indexed.once query
  · rw [owner] at own
    rcases indexed.covered peer query own named with member | ⟨held, member, inside⟩
    · by_cases same : query = signalingId
      · refine .inr ⟨_, Multiset.mem_cons_self _ _, ?_⟩
        rw [toRemove, ← same]
        exact member
      · rw [listed, if_neg same]
        exact .inl member
    · rcases Multiset.mem_cons.mp member with rfl | member
      · cases inside
      · exact .inr ⟨held, Multiset.mem_cons_of_mem member, inside⟩

/-- Adding a peer lists it. -/
theorem addPeer {roomId : RoomId} {participantId : PeerId} {signalingId : SignalingId}
    {init reply : Except String Unit} {taken : Multiset Taken} (indexed : Indexed runtime taken)
    (effect : SfuRuntime.exec (.addPeer roomId participantId signalingId init) runtime reply
      after) : Indexed after taken := by
  obtain ⟨existing, _, section'⟩ := effect
  have spec := runtime.addPeer_spec roomId participantId signalingId init existing
  rw [← section'] at spec
  dsimp only at spec
  cases spec with
  | failed _ owner index _ =>
      refine ⟨fun query peer => ?_, fun query => ?_, fun peer query => ?_⟩
      · rw [owner, SfuRuntime.listed_congr index]
        exact indexed.listed query peer
      · rw [SfuRuntime.listed_congr index]
        exact indexed.once query
      · rw [owner, SfuRuntime.listed_congr index]
        exact indexed.covered peer query
  | added _ unowned owner listed _ =>
      have unlisted (query : SignalingId) :
          (roomId, participantId) ∉ runtime.listed query := by
        intro member
        have own := (indexed.listed query _ member).2
        rw [unowned] at own
        cases own
      refine ⟨fun query peer member => ?_, fun query => ?_, fun peer query own named => ?_⟩
      · rw [listed] at member
        have old (member : peer ∈ runtime.listed query) :
            query ≠ "" ∧ after.owner peer = some query := by
          have other : peer ≠ (roomId, participantId) := by
            rintro rfl
            exact unlisted query member
          rw [owner, if_neg other]
          exact indexed.listed query peer member
        split at member
        · rename_i here
          rcases List.mem_append.mp member with member | new
          · exact old member
          · rw [List.mem_singleton.mp new, owner, if_pos rfl, here.1]
            exact ⟨here.2, rfl⟩
        · exact old member
      · rw [listed]
        split
        · refine List.nodup_append.mpr ⟨indexed.once query, List.nodup_singleton _, ?_⟩
          rintro peer member _ new rfl
          rw [List.mem_singleton.mp new] at member
          exact unlisted query member
        · exact indexed.once query
      · rw [owner] at own
        rw [listed]
        split at own
        · rename_i here
          cases own
          rw [if_pos ⟨rfl, named⟩, here]
          exact .inl (List.mem_append_right _ List.mem_cons_self)
        · refine (indexed.covered peer query own named).imp_left fun member => ?_
          split
          · exact List.mem_append_left _ member
          · exact member

end Indexed

/-! ## Every call keeps the index -/

def indexing : Outline calls where
  guard := Unrenewed
  inv := Indexed
  asserts _ _ _ := True

/-- A call that ends has nothing left to remove. -/
def Finished (taken : Taken) : Prop := taken = []

/-- A search takes nothing out of the index. -/
theorem findPeer_safe {roomId : RoomId} {participantId : PeerId} {α : Type}
    {next : Option (Option PeerSession) → RuntimeCall α} {post : Taken → α → Prop}
    (missing : indexing.Safe post [] (next none))
    (found : ∀ session, indexing.Safe post [] (next (some session))) :
    indexing.Safe post [] (RuntimeCall.perform (.findPeer roomId participantId) >>= next) := by
  intro runtime others indexed _
  refine ⟨trivial, fun reply after effect => ?_⟩
  obtain ⟨-, rfl⟩ := effect
  cases reply with
  | none => exact ⟨indexed, missing⟩
  | some session => exact ⟨indexed, found session⟩

/-- Adding a peer takes nothing out. -/
theorem addPeer_safe (roomId : RoomId) (participantId : PeerId) (signalingId : SignalingId)
    (init : Except String Unit) :
    indexing.Safe (fun taken _ => Finished taken) []
      (RuntimeCall.addPeer roomId participantId signalingId init) := by
  unfold RuntimeCall.addPeer
  split
  · rfl
  · intro runtime others indexed _
    exact ⟨trivial, fun reply after effect => ⟨indexed.addPeer effect, rfl⟩⟩

/-- Nor does removing a peer. -/
theorem removePeer_safe (roomId : RoomId) (participantId : PeerId) :
    indexing.Safe (fun taken _ => Finished taken) []
      (RuntimeCall.removePeer roomId participantId) := by
  unfold RuntimeCall.removePeer
  split
  · rfl
  · apply findPeer_safe
    · rfl
    · intro session runtime others indexed allowed
      exact ⟨trivial, fun reply after effect => ⟨indexed.removePeer allowed effect, rfl⟩⟩

/-- Nor does finding a session. -/
theorem findPeerSession_safe (roomId : RoomId) (participantId : PeerId) :
    indexing.Safe (fun taken _ => Finished taken) []
      (RuntimeCall.findPeerSession roomId participantId) := by
  unfold RuntimeCall.findPeerSession
  split
  · rfl
  · apply findPeer_safe
    · rfl
    · exact fun _ => rfl

/-- Removing a list goes through all that was taken out. -/
theorem removeListed_safe (toRemove : List (RoomId × PeerId)) (removed : ℕ) :
    indexing.Safe (fun taken _ => Finished taken) toRemove
      (RuntimeCall.removeListed toRemove removed) := by
  induction toRemove generalizing removed with
  | nil => rfl
  | cons peer toRemove ih =>
      obtain ⟨roomId, participantId⟩ := peer
      intro runtime others indexed _
      refine ⟨trivial, fun found still effect => ?_⟩
      obtain ⟨answer, rfl⟩ := effect
      cases found with
      | none =>
          refine ⟨indexed.skip ?_, ih removed⟩
          unfold SfuRuntime.owner
          rw [Option.map_eq_none_iff.mp answer.symm]
          rfl
      | some session =>
          refine ⟨indexed, fun runtime others indexed allowed => ⟨trivial, ?_⟩⟩
          intro reply after effect
          refine ⟨indexed.dropPeer allowed effect, ?_⟩
          rcases reply with _ | ⟨_ | _⟩
          · exact ih removed
          · exact ih removed
          · exact ih (removed + 1)

/-- Removing a node's peers has nothing left to remove at its end. -/
theorem removePeersBySignaling_safe (signalingId : SignalingId) :
    indexing.Safe (fun taken _ => Finished taken) []
      (RuntimeCall.removePeersBySignaling signalingId) := by
  unfold RuntimeCall.removePeersBySignaling
  split
  · rfl
  · intro runtime others indexed _
    refine ⟨trivial, fun reply after effect => ⟨indexed.takeSignaling effect, ?_⟩⟩
    cases reply with
    | none => rfl
    | some toRemove => exact removeListed_safe toRemove 0

/-- The index is kept by the steps of the other calls. -/
theorem indexing_stable : indexing.Stable where
  start := by
    rintro runtime taken phase program after ⟨rfl, rfl, call, rfl⟩ indexed
    have ends {taken : Taken} (finished : Finished taken) :
        indexing.MayFinish taken () := by
      intro runtime others indexed
      rw [show taken = [] from finished] at indexed
      refine ⟨indexed.listed, indexed.once, fun peer signalingId own named => ?_⟩
      refine (indexed.covered peer signalingId own named).imp_right ?_
      rintro ⟨left, member, inside⟩
      rcases Multiset.mem_cons.mp member with rfl | member
      · cases inside
      · exact ⟨left, member, inside⟩
    constructor
    · refine ⟨indexed.listed, indexed.once, fun peer signalingId own named => ?_⟩
      refine (indexed.covered peer signalingId own named).imp_right ?_
      rintro ⟨left, member, inside⟩
      exact ⟨left, Multiset.mem_cons_of_mem member, inside⟩
    · cases call with
      | addPeer roomId participantId signalingId init =>
          exact .bind ((addPeer_safe roomId participantId signalingId init).mono
            fun _ _ finished => ends finished)
      | removePeer roomId participantId =>
          exact .bind ((removePeer_safe roomId participantId).mono fun _ _ finished =>
            ends finished)
      | removePeersBySignaling signalingId =>
          exact .bind ((removePeersBySignaling_safe signalingId).mono
            fun _ _ finished => ends finished)
      | findPeerSession roomId participantId =>
          exact .bind ((findPeerSession_safe roomId participantId).mono
            fun _ _ finished => ends finished)
  discard _ _ _ never := never.elim
  environment _ _ _ never := never.elim

/-- An empty runtime without calls. -/
def idle : calls.Pool := ⟨({} : SfuRuntime), []⟩

/-- What a pool has of the runtime. -/
def runtimeOf (pool : calls.Pool) : SfuRuntime := pool.state

/-- An empty runtime is indexed. -/
theorem indexed_empty : Indexed {} 0 where
  listed _ _ member := absurd member List.not_mem_nil
  once _ := List.nodup_nil
  covered peer signalingId own := by
    rw [SfuRuntime.owner] at own
    cases own

/-- **The index is exact whenever no call is in progress**, if no removal takes out a
peer that is listed elsewhere than where it looks. -/
theorem exact_of_unrenewed {pool : calls.Pool} (run : Reaches Unrenewed idle pool)
    (quiescent : pool.Quiescent) : (runtimeOf pool).Exact := by
  have initial : indexing.Holds idle := .of_quiescent indexed_empty
  have last : Indexed (runtimeOf pool) 0 :=
    (initial.reaches indexing_stable run).quiescent quiescent
  exact last.exact

/-! ## A peer that takes the name of another -/

/-- The sections with a given order of the peers that `addPeer` meets. -/
def sampleSection (existing : List PeerId) :
    (step : Section) → SfuRuntime → Option (step.Reply × SfuRuntime)
  | .addPeer roomId participantId signalingId init, runtime =>
      if Enumerates existing ((runtime.getOrCreateRoom roomId).1.peers.keys.erase participantId)
      then some (runtime.addPeer roomId participantId signalingId init existing) else none
  | .findPeer roomId participantId, runtime =>
      some (runtime.findPeer roomId participantId, runtime)
  | .removePeer roomId participantId session, runtime =>
      some (runtime.removePeer roomId participantId session)
  | .takeSignaling signalingId, runtime => some (runtime.takeSignaling signalingId)
  | .dropPeer roomId participantId, runtime => some (runtime.dropPeer roomId participantId)

def sampler : calls.Sampler (List PeerId) where
  sample existing step runtime := sampleSection existing step runtime
  sound := by
    intro existing step runtime reply after sampled
    cases step with
    | addPeer roomId participantId signalingId init =>
        simp only [sampleSection] at sampled
        split at sampled
        · exact ⟨existing, ‹_›, (Option.some.inj sampled).symm⟩
        · cases sampled
    | findPeer roomId participantId =>
        cases sampled
        exact ⟨rfl, rfl⟩
    | removePeer roomId participantId session => exact (Option.some.inj sampled).symm
    | takeSignaling signalingId => exact (Option.some.inj sampled).symm
    | dropPeer roomId participantId => exact (Option.some.inj sampled).symm

instance : ∀ state phase step others, Decidable (Unrenewed state phase step others) := by
  intro state phase step others
  unfold Unrenewed
  split <;> infer_instance

def thread (call : Call) : calls.Thread := ⟨([] : Taken), call.program⟩

/-- Any calls may begin together. -/
theorem reaches_threads {guard : calls.Guard} (together : List Call) :
    Reaches guard idle ⟨({} : SfuRuntime), together.map thread⟩ := by
  refine reaches_start fun one member others => ?_
  obtain ⟨call, _, rfl⟩ := List.mem_map.mp member
  exact ⟨rfl, rfl, call, rfl⟩

/-- Alice joins for one node and for another, and two calls remove her. -/
def rejoining : List Call :=
  [.addPeer "room-1" "alice" "node-1" (.ok ()), .removePeer "room-1" "alice",
    .removePeer "room-1" "alice", .addPeer "room-1" "alice" "node-2" (.ok ())]

/-- One call after the other. -/
def oneByOne : List (ℕ × List PeerId) := List.replicate 9 (0, [])

/-- The peer that joins last is listed once. -/
theorem exact_of_unrenewed_oneByOne : ∃ pool, Reaches Unrenewed idle pool ∧
    pool.Quiescent ∧ (runtimeOf pool).owner ("room-1", "alice") = some "node-2" ∧
      (runtimeOf pool).Exact := by
  have replayed : (sampler.replay Unrenewed oneByOne
      ⟨({} : SfuRuntime), rejoining.map thread⟩).any (fun pool => pool.threads.isEmpty ∧
        (runtimeOf pool).owner ("room-1", "alice") = some "node-2") = true := by
    decide +kernel
  obtain ⟨pool, run, passed⟩ := Sampler.exists_of_replay replayed
  obtain ⟨quiescent, own⟩ := of_decide_eq_true passed
  have quiescent := List.isEmpty_iff.mp quiescent
  have run := (reaches_threads rejoining).trans run
  exact ⟨pool, run, quiescent, own, exact_of_unrenewed run quiescent⟩

/-- A removal looks the first peer up and removes the second. -/
def outrun : List (ℕ × List PeerId) :=
  [(0, []), (0, []), (0, []), (1, []), (1, []), (1, []), (1, []), (1, []), (0, []), (0, [])]

/-- **The index keeps a peer that is gone**: a removal that has looked up the peer of one
node takes out the peer of another that has joined under the same name. -/
theorem stale_entry : ∃ pool, Reaches unguarded idle pool ∧ pool.Quiescent ∧
    ¬ (runtimeOf pool).Exact := by
  have replayed : (sampler.replay unguarded outrun
      ⟨({} : SfuRuntime), rejoining.map thread⟩).any (fun pool => pool.threads.isEmpty ∧
        ("room-1", "alice") ∈ (runtimeOf pool).listed "node-2" ∧
        (runtimeOf pool).owner ("room-1", "alice") = none) = true := by
    decide +kernel
  obtain ⟨pool, run, passed⟩ := Sampler.exists_of_replay replayed
  obtain ⟨quiescent, listed, unowned⟩ := of_decide_eq_true passed
  refine ⟨pool, (reaches_threads rejoining).trans run, List.isEmpty_iff.mp quiescent, ?_⟩
  intro exact
  have own := ((exact.listed "node-2" ("room-1", "alice")).mp listed).2
  rw [unowned] at own
  cases own

end Callifornia.Sfu
