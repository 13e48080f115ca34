import Callifornia.Concurrency.Sequential
import Callifornia.Concurrency.Transition
import Callifornia.Sfu.PeerIndex

/-! # The runtime as a map of peers

Called one at a time, the operations of the runtime are those of a finite map from
peers to signaling nodes: the rooms and the index are two views of it.
-/

namespace Callifornia.Sfu

open FiniteMap Concurrency Concurrency.Program

/-- A call of the runtime with what it returned. -/
inductive Served
  | addPeer (roomId : RoomId) (participantId : PeerId) (signalingId : SignalingId)
      (init result : Except String Unit)
  | removePeer (roomId : RoomId) (participantId : PeerId) (removed : Bool)
  | removePeersBySignaling (signalingId : SignalingId) (removed : ℕ)
  | findPeerSession (roomId : RoomId) (participantId : PeerId) (session : Option PeerSession)

/-- The call is executed alone and returns this. -/
def Served.Step : Served → SfuRuntime → SfuRuntime → Prop
  | .addPeer roomId participantId signalingId init result, before, after =>
      (RuntimeCall.addPeer roomId participantId signalingId init).Runs SfuRuntime.exec before
        result after
  | .removePeer roomId participantId removed, before, after =>
      (RuntimeCall.removePeer roomId participantId).Runs SfuRuntime.exec before removed after
  | .removePeersBySignaling signalingId removed, before, after =>
      (RuntimeCall.removePeersBySignaling signalingId).Runs SfuRuntime.exec before removed after
  | .findPeerSession roomId participantId session, before, after =>
      (RuntimeCall.findPeerSession roomId participantId).Runs SfuRuntime.exec before session after

/-- The signaling node of each peer. -/
abbrev PeerMap := Map (RoomId × PeerId) SignalingId

/-- What a call does to the map, and what it returns. -/
def Served.Effect : Served → PeerMap → PeerMap → Prop
  | .addPeer roomId participantId signalingId init result, before, after =>
      if roomId ≠ "" ∧ participantId ≠ "" ∧ (roomId, participantId) ∉ before ∧
          init.isOk = true then
        result.isOk = true ∧ after = before.insert (roomId, participantId) signalingId
      else result.isOk = false ∧ after = before
  | .removePeer roomId participantId removed, before, after =>
      removed = decide ((roomId, participantId) ∈ before) ∧
        after = before.erase (roomId, participantId)
  | .removePeersBySignaling signalingId removed, before, after =>
      if signalingId = "" then removed = 0 ∧ after = before
      else removed = tally (· = signalingId) before ∧
        after = filter (fun _ owner => owner ≠ signalingId) before
  | .findPeerSession roomId participantId session, before, after =>
      session.isSome = decide ((roomId, participantId) ∈ before) ∧ after = before

namespace SfuRuntime

variable {runtime : SfuRuntime}

/-! ## What the sections ensure -/

/-- A peer is found where it has an owner. -/
theorem findPeer_isSome (roomId : RoomId) (participantId : PeerId) :
    ((runtime.findPeer roomId participantId).join).isSome =
      (runtime.owner (roomId, participantId)).isSome := by
  unfold findPeer owner
  cases runtime.rooms.lookup roomId with
  | none => rfl
  | some room => exact (Option.isSome_map ..).symm

/-- A room that is missing has no owner for any peer. -/
theorem owner_of_findPeer {roomId : RoomId} {participantId : PeerId}
    (missing : runtime.findPeer roomId participantId = none) :
    runtime.owner (roomId, participantId) = none := by
  rw [← Option.not_isSome_iff_eq_none, ← findPeer_isSome, missing]
  simp

/-- The session found is its owner's. -/
theorem owner_of_findPeer_some {roomId : RoomId} {participantId : PeerId}
    {session : PeerSession} (found : runtime.findPeer roomId participantId = some (some session)) :
    runtime.owner (roomId, participantId) = some session.signalingId := by
  unfold findPeer at found
  obtain ⟨room, lookup, same⟩ := Option.map_eq_some_iff.mp found
  have peer : room.peers.lookup participantId = some session := same
  rw [owner, lookup, Option.bind_some, Room.owner, peer, Option.map_some]

/-- The peers that were listed, after they have been removed one by one. -/
structure Emptied (before : SfuRuntime) (toRemove : List (RoomId × PeerId))
    (after : SfuRuntime) : Prop where
  owner : ∀ peer, after.owner peer = if peer ∈ toRemove then none else before.owner peer
  index : after.signalingPeers = before.signalingPeers
  occupied : before.Occupied → after.Occupied

/-- Removing a list of present peers empties exactly the list and counts it. -/
theorem removeListed_ensures {toRemove : List (RoomId × PeerId)} (once : toRemove.Nodup)
    (present : ∀ peer ∈ toRemove, (runtime.owner peer).isSome = true) (removed : ℕ) :
    (RuntimeCall.removeListed toRemove removed).Ensures exec runtime fun total after =>
      total = removed + toRemove.length ∧ runtime.Emptied toRemove after := by
  induction toRemove generalizing runtime removed with
  | nil => exact ensures_ret.mpr ⟨rfl, fun peer => by simp, rfl, id⟩
  | cons peer toRemove ih =>
      obtain ⟨roomId, participantId⟩ := peer
      obtain ⟨fresh, once⟩ := List.nodup_cons.mp once
      have here := present (roomId, participantId) List.mem_cons_self
      refine ensures_call.mpr fun found still ⟨answer, same⟩ => ?_
      rw [same, answer]
      cases lookup : runtime.findPeer roomId participantId with
      | none =>
          rw [owner_of_findPeer lookup] at here
          cases here
      | some session =>
          refine ensures_call.mpr fun reply middle dropped => ?_
          have spec := runtime.dropPeer_spec roomId participantId
          rw [← show (reply, middle) = _ from dropped] at spec
          obtain ⟨taken, owners, index, occupied⟩ := spec
          have success : reply = some true := taken.mpr here
          subst success
          have later : ∀ peer ∈ toRemove, (middle.owner peer).isSome = true := by
            intro peer member
            have other : peer ≠ (roomId, participantId) := fun same => fresh (same ▸ member)
            rw [owners, if_neg other]
            exact present peer (List.mem_cons_of_mem _ member)
          refine (ih once later (removed + 1)).mono fun total after ⟨count, emptied⟩ => ⟨?_, ?_⟩
          · rw [count, List.length_cons]
            omega
          · refine ⟨fun query => ?_, emptied.index.trans index, fun here =>
              emptied.occupied (occupied here)⟩
            rw [emptied.owner, owners]
            by_cases same : query = (roomId, participantId)
            · simp [same]
            · simp [same]

end SfuRuntime

/-! ## The simulation -/

/-- The rooms and the index are two views of the map. -/
structure Represents (runtime : SfuRuntime) (peers : PeerMap) : Prop where
  owner : ∀ peer, peers.lookup peer = runtime.owner peer
  exact : runtime.Exact
  occupied : runtime.Occupied
  named : ∀ peer, peer ∈ peers → peer.1 ≠ "" ∧ peer.2 ≠ ""

namespace Represents

variable {runtime after : SfuRuntime} {peers : PeerMap}

/-- The abstract map has the peers that have an owner. -/
theorem mem_iff (represents : Represents runtime peers) (peer : RoomId × PeerId) :
    peer ∈ peers ↔ (runtime.owner peer).isSome = true := by
  rw [← represents.owner]
  exact Finmap.lookup_isSome.symm

/-- Whether a peer has an owner is whether the abstract map has it. -/
theorem isSome_owner (represents : Represents runtime peers) (peer : RoomId × PeerId) :
    (runtime.owner peer).isSome = decide (peer ∈ peers) := by
  rw [Bool.eq_iff_iff, decide_eq_true_iff]
  exact (represents.mem_iff peer).symm

/-- Some peers are gone from the rooms and from the index. -/
theorem erased (represents : Represents runtime peers) {smaller : PeerMap}
    {gone : RoomId × PeerId → Prop}
    (lookup : ∀ peer, smaller.lookup peer = after.owner peer)
    (owner : ∀ peer, after.owner peer ≠ none → after.owner peer = runtime.owner peer ∧ ¬ gone peer)
    (stays : ∀ peer, ¬ gone peer → after.owner peer = runtime.owner peer)
    (listed : ∀ signalingId peer, peer ∈ after.listed signalingId ↔
      peer ∈ runtime.listed signalingId ∧ ¬ gone peer)
    (once : ∀ signalingId, (after.listed signalingId).Nodup) (occupied : after.Occupied) :
    Represents after smaller := by
  refine ⟨lookup, ⟨fun signalingId peer => ?_, once⟩, occupied, fun peer member => ?_⟩
  · rw [listed, represents.exact.listed]
    constructor
    · intro ⟨⟨named, own⟩, stays'⟩
      exact ⟨named, (stays peer stays').trans own⟩
    · intro ⟨named, own⟩
      obtain ⟨same, stays'⟩ := owner peer (by rw [own]; exact Option.some_ne_none _)
      exact ⟨⟨named, same.symm.trans own⟩, stays'⟩
  · apply represents.named
    have here : after.owner peer ≠ none := by
      rw [← lookup]
      exact Option.ne_none_iff_isSome.mpr (Finmap.lookup_isSome.mpr member)
    rw [represents.mem_iff, ← (owner peer here).1]
    exact Option.ne_none_iff_isSome.mp here

/-- The simulation is kept when nothing is changed that is seen from outside. -/
theorem unchanged (represents : Represents runtime peers)
    (owner : ∀ peer, after.owner peer = runtime.owner peer)
    (index : after.signalingPeers = runtime.signalingPeers) (occupied : after.Occupied) :
    Represents after peers := by
  refine ⟨fun peer => (represents.owner peer).trans (owner peer).symm, ⟨fun signalingId peer => ?_,
    fun signalingId => ?_⟩, occupied, represents.named⟩
  · rw [SfuRuntime.listed_congr index, owner]
    exact represents.exact.listed signalingId peer
  · rw [SfuRuntime.listed_congr index]
    exact represents.exact.once signalingId

/-- Adding a peer is adding it to the abstract map. -/
theorem addPeer (represents : Represents runtime peers) {roomId : RoomId}
    {participantId : PeerId} {signalingId : SignalingId} {init result : Except String Unit}
    (step : (Served.addPeer roomId participantId signalingId init result).Step runtime after) :
    ∃ later, (Served.addPeer roomId participantId signalingId init result).Effect peers later ∧
      Represents after later := by
  simp only [Served.Step, RuntimeCall.addPeer] at step
  by_cases unnamed : roomId = "" ∨ participantId = ""
  · rw [if_pos unnamed] at step
    obtain ⟨rfl, rfl⟩ := step
    refine ⟨peers, ?_, represents⟩
    have refused : ¬ (roomId ≠ "" ∧ participantId ≠ "" ∧ (roomId, participantId) ∉ peers ∧
        init.isOk = true) := fun ⟨room, participant, _⟩ => unnamed.elim room participant
    rw [Served.Effect, if_neg refused]
    exact ⟨rfl, rfl⟩
  · rw [if_neg unnamed] at step
    obtain ⟨reply, middle, ⟨existing, _, section'⟩, rfl, rfl⟩ := step
    obtain ⟨room, participant⟩ := not_or.mp unnamed
    have spec := runtime.addPeer_spec roomId participantId signalingId init existing
    rw [← section'] at spec
    dsimp only at spec
    cases spec with
    | failed present owner index occupied =>
        refine ⟨peers, ?_, represents.unchanged owner index (occupied represents.occupied)⟩
        have refused : ¬ (roomId ≠ "" ∧ participantId ≠ "" ∧ (roomId, participantId) ∉ peers ∧
            init.isOk = true) := fun ⟨_, _, absent, ok⟩ =>
          absent ((represents.mem_iff _).mpr (present ok))
        rw [Served.Effect, if_neg refused]
        exact ⟨rfl, rfl⟩
    | added ok unowned owner listed occupied =>
        have absent : (roomId, participantId) ∉ peers := by
          rw [represents.mem_iff, unowned]
          exact Bool.false_ne_true
        refine ⟨peers.insert (roomId, participantId) signalingId, ?_, ?_⟩
        · rw [Served.Effect, if_pos ⟨room, participant, absent, ok⟩]
          exact ⟨rfl, rfl⟩
        · refine ⟨fun peer => ?_, ⟨fun query peer => ?_, fun query => ?_⟩,
            occupied represents.occupied, fun peer member => ?_⟩
          · rw [lookup_insert_if, owner, represents.owner]
          · have old := represents.exact.listed query peer
            rw [listed, owner]
            by_cases same : peer = (roomId, participantId)
            · subst same
              rw [if_pos rfl]
              have unlisted : (roomId, participantId) ∉ runtime.listed query := by
                rw [old, unowned]
                simp
              by_cases here : query = signalingId ∧ signalingId ≠ ""
              · rw [if_pos here]
                simp [here.1, here.2]
              · rw [if_neg here]
                refine iff_of_false unlisted fun ⟨named, same⟩ => here ?_
                cases same
                exact ⟨rfl, named⟩
            · rw [if_neg same, ← old]
              split <;> simp [same]
          · have old := represents.exact.once query
            rw [listed]
            split
            · refine List.nodup_append.mpr ⟨old, List.nodup_singleton _, ?_⟩
              rintro peer member _ new rfl
              rw [List.mem_singleton.mp new, represents.exact.listed, unowned] at member
              cases member.2
            · exact old
          · rcases Finmap.mem_insert.mp member with same | old
            · rw [same]
              exact ⟨room, participant⟩
            · exact represents.named peer old

/-- No peer of the map goes without a name or a room. -/
theorem not_mem_of_unnamed (represents : Represents runtime peers) {roomId : RoomId}
    {participantId : PeerId} (unnamed : roomId = "" ∨ participantId = "") :
    (roomId, participantId) ∉ peers := fun member =>
  unnamed.elim (represents.named _ member).1 (represents.named _ member).2

/-- Erasing an absent peer changes nothing. -/
theorem erase_absent (represents : Represents runtime peers) {peer : RoomId × PeerId}
    (absent : peer ∉ peers) : Represents runtime (peers.erase peer) := by
  have same : peers.erase peer = peers := by
    apply Finmap.ext_lookup
    intro query
    rw [lookup_erase_if]
    split
    · rename_i here
      rw [here]
      exact (Finmap.lookup_eq_none.mpr absent).symm
    · rfl
  rw [same]
  exact represents

/-- Removing a peer is erasing it from the abstract map. -/
theorem removePeer (represents : Represents runtime peers) {roomId : RoomId}
    {participantId : PeerId} {removed : Bool}
    (step : (Served.removePeer roomId participantId removed).Step runtime after) :
    (Served.removePeer roomId participantId removed).Effect peers
        (peers.erase (roomId, participantId)) ∧
      Represents after (peers.erase (roomId, participantId)) := by
  simp only [Served.Step, RuntimeCall.removePeer] at step
  by_cases unnamed : roomId = "" ∨ participantId = ""
  · rw [if_pos unnamed] at step
    obtain ⟨rfl, rfl⟩ := step
    have absent := represents.not_mem_of_unnamed unnamed
    exact ⟨⟨(decide_eq_false absent).symm, rfl⟩, represents.erase_absent absent⟩
  · rw [if_neg unnamed] at step
    obtain ⟨found, still, ⟨answer, same⟩, step⟩ := step
    subst same
    cases lookup : still.findPeer roomId participantId with
    | none =>
        rw [answer, lookup] at step
        obtain ⟨rfl, rfl⟩ := step
        have absent : (roomId, participantId) ∉ peers := by
          rw [represents.mem_iff, SfuRuntime.owner_of_findPeer lookup]
          exact Bool.false_ne_true
        exact ⟨⟨(decide_eq_false absent).symm, rfl⟩, represents.erase_absent absent⟩
    | some session =>
        rw [answer, lookup] at step
        obtain ⟨reply, middle, section', rfl, rfl⟩ := step
        have spec := still.removePeer_spec roomId participantId session
        rw [← show (removed, after) = _ from section'] at spec
        dsimp only at spec
        have found (query : SignalingId)
            (member : (roomId, participantId) ∈ still.listed query) :
            still.owner (roomId, participantId) ≠ none ∧
              session.map (·.signalingId) = some query := by
          have own := ((represents.exact.listed query _).mp member).2
          refine ⟨by rw [own]; exact Option.some_ne_none query, ?_⟩
          have here := still.findPeer_isSome roomId participantId
          rw [lookup, own] at here
          obtain ⟨held, rfl⟩ := Option.isSome_iff_exists.mp here
          rw [Option.map_some, ← own, ← SfuRuntime.owner_of_findPeer_some lookup]
        refine ⟨⟨by rw [spec.removed, represents.isSome_owner], rfl⟩, ?_⟩
        refine @represents.erased _ _ _ _ (· = (roomId, participantId)) (fun peer => ?_)
          (fun peer own => ?_) (fun peer other => ?_) (spec.mem_listed found)
          (fun query => spec.once (represents.exact.once query)) (spec.occupied represents.occupied)
        · rw [lookup_erase_if, spec.owner, represents.owner]
        · rw [spec.owner] at own ⊢
          split at own
          · exact absurd rfl own
          · rename_i other
            exact ⟨if_neg other, other⟩
        · rw [spec.owner, if_neg other]

/-- The peers listed under a signaling node are those the map gives it. -/
theorem length_listed (represents : Represents runtime peers) {signalingId : SignalingId}
    (named : signalingId ≠ "") :
    (runtime.listed signalingId).length = tally (· = signalingId) peers := by
  rw [tally, ← List.toFinset_card_of_nodup (represents.exact.once signalingId)]
  congr 1
  ext peer
  rw [List.mem_toFinset, represents.exact.listed, mem_support]
  constructor
  · rintro ⟨_, own⟩
    exact ⟨signalingId, (represents.owner peer).trans own, rfl⟩
  · rintro ⟨owner, found, rfl⟩
    exact ⟨named, (represents.owner peer).symm.trans found⟩

/-- Removing a node's peers is erasing them from the abstract map. -/
theorem removePeersBySignaling (represents : Represents runtime peers)
    {signalingId : SignalingId} {removed : ℕ}
    (step : (Served.removePeersBySignaling signalingId removed).Step runtime after) :
    ∃ later, (Served.removePeersBySignaling signalingId removed).Effect peers later ∧
      Represents after later := by
  simp only [Served.Step, RuntimeCall.removePeersBySignaling] at step
  by_cases unnamed : signalingId = ""
  · rw [if_pos unnamed] at step
    obtain ⟨rfl, rfl⟩ := step
    refine ⟨peers, ?_, represents⟩
    rw [Served.Effect, if_pos unnamed]
    exact ⟨rfl, rfl⟩
  · rw [if_neg unnamed] at step
    obtain ⟨reply, taken, section', step⟩ := step
    obtain ⟨toRemove, rooms, listed⟩ := runtime.takeSignaling_spec signalingId
    rw [← show (reply, taken) = _ from section'] at toRemove rooms listed
    dsimp only at toRemove rooms listed
    have still (peer : RoomId × PeerId) : taken.owner peer = runtime.owner peer := by
      rw [SfuRuntime.owner, rooms]
      rfl
    have present : ∀ peer ∈ runtime.listed signalingId, (taken.owner peer).isSome = true := by
      intro peer member
      rw [still, ((represents.exact.listed signalingId peer).mp member).2]
      rfl
    -- whatever was listed is removed, one peer at a time
    have emptied : removed = (runtime.listed signalingId).length ∧
        taken.Emptied (runtime.listed signalingId) after := by
      cases reply with
      | none =>
          obtain ⟨rfl, rfl⟩ := step
          rw [← toRemove]
          exact ⟨rfl, fun peer => by simp, rfl, id⟩
      | some list =>
          rw [← toRemove] at present ⊢
          have once : list.Nodup := by
            rw [show list = runtime.listed signalingId from toRemove]
            exact represents.exact.once signalingId
          have ensures := (SfuRuntime.removeListed_ensures once present 0).holds removed after step
          rw [Nat.zero_add] at ensures
          exact ensures
    obtain ⟨count, emptied⟩ := emptied
    have mine (peer : RoomId × PeerId) :
        peer ∈ runtime.listed signalingId ↔ runtime.owner peer = some signalingId := by
      rw [represents.exact.listed]
      exact and_iff_right unnamed
    have owner (peer : RoomId × PeerId) : after.owner peer =
        if runtime.owner peer = some signalingId then none else runtime.owner peer := by
      rw [emptied.owner, still]
      exact if_congr (mine peer) rfl rfl
    have index (query : SignalingId) : after.listed query =
        if query = signalingId then [] else runtime.listed query := by
      rw [SfuRuntime.listed_congr emptied.index, listed]
    refine ⟨filter (fun _ owner => owner ≠ signalingId) peers, ?_, ?_⟩
    · rw [Served.Effect, if_neg unnamed, count]
      exact ⟨represents.length_listed unnamed, rfl⟩
    · refine @represents.erased _ _ _ _ (runtime.owner · = some signalingId) (fun peer => ?_)
        (fun peer own => ?_) (fun peer other => ?_) (fun query peer => ?_) (fun query => ?_)
        (emptied.occupied ?_)
      · rw [lookup_filter, represents.owner, owner]
        cases runtime.owner peer with
        | none => rfl
        | some own => by_cases same : own = signalingId <;> simp [same]
      · rw [owner] at own ⊢
        split at own
        · exact absurd rfl own
        · rename_i other
          exact ⟨if_neg other, other⟩
      · rw [owner, if_neg other]
      · rw [index]
        by_cases same : query = signalingId
        · rw [if_pos same, same, mine]
          simp
        · rw [if_neg same, represents.exact.listed]
          refine ⟨fun own => ⟨own, fun other => same ?_⟩, And.left⟩
          exact Option.some.inj (own.2.symm.trans other)
      · rw [index]
        split
        · exact List.nodup_nil
        · exact represents.exact.once query
      · unfold SfuRuntime.Occupied
        rw [rooms]
        exact represents.occupied

/-- Finding a session is looking the peer up in the abstract map. -/
theorem findPeerSession (represents : Represents runtime peers) {roomId : RoomId}
    {participantId : PeerId} {session : Option PeerSession}
    (step : (Served.findPeerSession roomId participantId session).Step runtime after) :
    (Served.findPeerSession roomId participantId session).Effect peers peers ∧
      Represents after peers := by
  simp only [Served.Step, RuntimeCall.findPeerSession] at step
  by_cases unnamed : roomId = "" ∨ participantId = ""
  · rw [if_pos unnamed] at step
    obtain ⟨rfl, rfl⟩ := step
    exact ⟨⟨(decide_eq_false (represents.not_mem_of_unnamed unnamed)).symm, rfl⟩, represents⟩
  · rw [if_neg unnamed] at step
    obtain ⟨found, still, ⟨rfl, rfl⟩, rfl, rfl⟩ := step
    refine ⟨⟨?_, rfl⟩, represents⟩
    rw [SfuRuntime.findPeer_isSome, represents.isSome_owner]

/-- **Step lemma**: every call of the runtime is a call of the map. -/
theorem step (served : Served) (before after : SfuRuntime) (peers : PeerMap)
    (represents : Represents before peers) (step : served.Step before after) :
    ∃ later, served.Effect peers later ∧ Represents after later := by
  cases served with
  | addPeer roomId participantId signalingId init result => exact represents.addPeer step
  | removePeer roomId participantId removed => exact ⟨_, represents.removePeer step⟩
  | removePeersBySignaling signalingId removed => exact represents.removePeersBySignaling step
  | findPeerSession roomId participantId session => exact ⟨_, represents.findPeerSession step⟩

/-- The runtime begins as the empty map. -/
theorem empty : Represents {} ∅ where
  owner peer := by
    rw [SfuRuntime.owner]
    rfl
  exact :=
    { listed := fun signalingId peer => by
        rw [SfuRuntime.owner]
        exact iff_of_false List.not_mem_nil fun own => absurd own.2 (Option.some_ne_none _).symm
      once := fun _ => List.nodup_nil }
  occupied roomId room found := by
    rw [Finmap.lookup_empty] at found
    cases found
  named _ member := absurd member Finmap.notMem_empty

end Represents

/-- **The runtime refines a map from peers to signaling nodes**, and keeps no empty room. -/
theorem refines_peerMap {calls : List Served} {runtime : SfuRuntime}
    (run : Concurrency.Runs Served.Step {} calls runtime) :
    ∃ peers, Concurrency.Runs Served.Effect ∅ calls peers ∧
      (∀ peer, peers.lookup peer = runtime.owner peer) ∧ runtime.Exact ∧ runtime.Occupied := by
  obtain ⟨peers, abstract, represents⟩ := run.simulates Represents.step Represents.empty
  exact ⟨peers, abstract, represents.owner, represents.exact, represents.occupied⟩

/-- A runtime with one peer. -/
def occupiedByAlice : SfuRuntime :=
  (SfuRuntime.addPeer {} "room-1" "alice" "node-1" (.ok ()) []).2

/-- Alice joins an empty runtime. -/
theorem occupiedByAlice_joins :
    (Served.addPeer "room-1" "alice" "node-1" (.ok ()) (.ok ())).Step {} occupiedByAlice := by
  rw [Served.Step, RuntimeCall.addPeer, if_neg (by decide)]
  exact ⟨_, _, ⟨[], by decide, rfl⟩, rfl, rfl⟩

/-- The runtime once the node of its peer is gone. -/
def leftByAlice : SfuRuntime :=
  ((occupiedByAlice.takeSignaling "node-1").2.dropPeer "room-1" "alice").2

/-- Alice leaves with the peers of her node. -/
theorem occupiedByAlice_leaves :
    (Served.removePeersBySignaling "node-1" 1).Step occupiedByAlice leftByAlice := by
  rw [Served.Step, RuntimeCall.removePeersBySignaling, if_neg (by decide)]
  exact ⟨_, _, rfl, _, _, ⟨rfl, rfl⟩, _, _, rfl, rfl, rfl⟩

/-- A peer joins, and the node it belongs to goes away. -/
theorem refines_peerMap_node : ∃ runtime,
    Concurrency.Runs Served.Step {} [.addPeer "room-1" "alice" "node-1" (.ok ()) (.ok ()),
      .removePeersBySignaling "node-1" 1] runtime ∧
    ∃ peers, Concurrency.Runs Served.Effect ∅
        [.addPeer "room-1" "alice" "node-1" (.ok ()) (.ok ()),
          .removePeersBySignaling "node-1" 1] peers ∧
      (∀ peer, peers.lookup peer = runtime.owner peer) ∧ runtime.Exact ∧ runtime.Occupied := by
  have run := Concurrency.Runs.cons occupiedByAlice_joins (.cons occupiedByAlice_leaves .nil)
  exact ⟨_, run, refines_peerMap run⟩

end Callifornia.Sfu
