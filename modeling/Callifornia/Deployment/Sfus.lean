import Callifornia.Deployment.Tasks
import Callifornia.Sfu.PeerMap
import Callifornia.Signaling.SfuRegistry

/-! # The SFUs of the deployment

The steps of the deployment say what a call to an SFU does to the peers that the SFU holds. The
service of an SFU does nothing else: every request it serves is such a step, and the end of an
event stream only takes peers away.
-/

namespace Callifornia.Sfu

open Concurrency Concurrency.Program FiniteMap Signaling.SfuRegistry

/-- What the WebRTC connection of a session does with a request. -/
structure Media where
  hasPeerConnection : Bool
  /-- The local description, if it is there in time. -/
  answer : Option String
  offerError : String
  addsCandidate : Bool

namespace SfuServiceImpl

def failure (errorMessage : String) : Response :=
  { success := false, errorMessage := some errorMessage }

def createPeer (roomId : RoomId) (participantId : PeerId) (signalingId : SignalingId)
    (init : Except String Unit) : RuntimeCall Response := do
  match ← RuntimeCall.addPeer roomId participantId signalingId init with
  | .error err => return failure err
  | .ok () => return { success := true }

def deletePeer (roomId : RoomId) (participantId : PeerId) : RuntimeCall Response := do
  let _ ← RuntimeCall.removePeer roomId participantId
  return { success := true }

/-- The number of the type may be any: the enumeration is open. -/
def handleSdp (roomId : RoomId) (participantId : PeerId) (sdpType : ℤ)
    (media : PeerSession → Media) : RuntimeCall Response := do
  match (← RuntimeCall.findPeerSession roomId participantId).map media with
  | none => return failure "unknown peer or PeerConnection not initialized"
  | some session =>
      if !session.hasPeerConnection then
        return failure "unknown peer or PeerConnection not initialized"
      else if sdpType = SdpType.answer.number then
        return failure "client SDP answer not supported yet; send an offer after CreatePeer"
      else if sdpType ≠ SdpType.offer.number ∧ sdpType ≠ SdpType.unspecified.number then
        return failure "unsupported SDP type"
      else
        match session.answer with
        | none =>
            return failure (if session.offerError = "" then
              "failed to apply offer or timed out waiting for answer" else session.offerError)
        | some answer =>
            return { success := true, sdp := answer, sdpType := SdpType.answer.number }

def addIceCandidate (roomId : RoomId) (participantId : PeerId) (media : PeerSession → Media) :
    RuntimeCall Response := do
  match (← RuntimeCall.findPeerSession roomId participantId).map media with
  | none => return failure "unknown peer or failed to add ICE candidate"
  | some session =>
      if session.addsCandidate then return { success := true }
      else return failure "unknown peer or failed to add ICE candidate"

/-- A request of a signaling node; `init` is what `initPeerConnection` would do. -/
def serve (init : Except String Unit) (media : PeerSession → Media) :
    Request → RuntimeCall Response
  | .createPeer roomId participantId signalingId =>
      createPeer roomId participantId signalingId init
  | .deletePeer roomId participantId _ => deletePeer roomId participantId
  | .handleSdp roomId participantId _ sdpType =>
      handleSdp roomId participantId sdpType.number media
  | .addIceCandidate roomId participantId _ _ => addIceCandidate roomId participantId media

/-- What `SubscribeEvents` does when the stream has ended. -/
def endSubscription (signalingId : SignalingId) : RuntimeCall Unit := do
  let _ ← RuntimeCall.removePeersBySignaling signalingId

end SfuServiceImpl

/-- A call of the service, with what the WebRTC library does and what is responded. -/
inductive ServiceCall
  | serve (init : Except String Unit) (media : PeerSession → Media) (request : Request)
      (response : Response)
  | endSubscription (signalingId : SignalingId)

/-- The call is served alone. -/
def ServiceCall.Step : ServiceCall → SfuRuntime → SfuRuntime → Prop
  | .serve init media request response, before, after =>
      (SfuServiceImpl.serve init media request).Runs SfuRuntime.exec before response after
  | .endSubscription signalingId, before, after =>
      (SfuServiceImpl.endSubscription signalingId).Runs SfuRuntime.exec before () after

/-- The step of the deployment that a request to an SFU is. -/
def Observes (sfuAddr : Address) (response : Response) :
    Request → World → World → Prop
  | .createPeer roomId participantId signalingId, before, after =>
      World.exec (.createPeer sfuAddr roomId participantId signalingId) before
        (.ok ⟨response.success, response.errorMessage⟩) after
  | .deletePeer roomId participantId reason, before, after =>
      World.exec (.deletePeer sfuAddr roomId participantId reason) before
        (.ok ⟨response.success, response.errorMessage⟩) after
  | .handleSdp roomId participantId sdp sdpType, before, after =>
      ∀ text, parseSdpType text = sdpType →
        World.exec (.handleSdp sfuAddr roomId participantId sdp text) before
          (.ok ⟨response.success, response.errorMessage, response.sdp,
            formatSdpType response.sdpType⟩) after
  | .addIceCandidate roomId participantId candidate sdpMid, before, after =>
      World.exec (.addIceCandidate sfuAddr roomId participantId candidate sdpMid) before
        (.ok ⟨response.success, response.errorMessage⟩) after

/-- What the deployment sees of a call of the service at this address. -/
def ServiceCall.Observed (sfuAddr : Address) : ServiceCall → World → World → Prop
  | .serve _ _ request response, before, after => Observes sfuAddr response request before after
  | .endSubscription _, before, after => Deployment.Changes before after ∧
      ∀ peer ∈ before.sfuPeers, peer.1 ≠ sfuAddr → peer ∈ after.sfuPeers

/-- The peers of the runtime are those that the SFU holds. -/
def Holds (sfuAddr : Address) (runtime : SfuRuntime) (world : World) : Prop :=
  ∃ peers, Represents runtime peers ∧ ∀ roomId participantId,
    (sfuAddr, roomId, participantId) ∈ world.sfuPeers ↔ (roomId, participantId) ∈ peers

namespace Holds

variable {sfuAddr : Address} {runtime after : SfuRuntime} {world : World} {response : Response}
  {roomId : RoomId} {participantId : PeerId} {media : PeerSession → Media}

/-- Creating a peer at the service is the deployment's call. -/
theorem createPeer {signalingId : SignalingId} {init : Except String Unit}
    (holds : Holds sfuAddr runtime world)
    (run : (SfuServiceImpl.createPeer roomId participantId signalingId init).Runs SfuRuntime.exec
      runtime response after) :
    ∃ later, Observes sfuAddr response (.createPeer roomId participantId signalingId) world later ∧
      Holds sfuAddr after later := by
  obtain ⟨peers, represents, same⟩ := holds
  obtain ⟨result, middle, added, run⟩ := runs_bind.mp run
  obtain ⟨later, effect, represents⟩ := @Represents.addPeer _ _ _ represents _ _ _ _ _ added
  rw [Served.Effect] at effect
  by_cases fresh : roomId ≠ "" ∧ participantId ≠ "" ∧ (roomId, participantId) ∉ peers ∧
      init.isOk = true
  · rw [if_pos fresh] at effect
    obtain ⟨room, participant, absent, -⟩ := fresh
    obtain ⟨ok, rfl⟩ := effect
    cases result with
    | error err => cases ok
    | ok =>
        obtain ⟨rfl, rfl⟩ := run
        refine ⟨_, .inl ⟨rfl, room, participant, mt (same _ _).mp absent, rfl⟩, _, represents, ?_⟩
        intro otherRoom otherParticipant
        simp only [Finset.mem_insert, Prod.mk.injEq, true_and, Finmap.mem_insert, same]
  · rw [if_neg fresh] at effect
    obtain ⟨failed, rfl⟩ := effect
    cases result with
    | ok => cases failed
    | error err =>
        obtain ⟨rfl, rfl⟩ := run
        exact ⟨world, .inr ⟨⟨err, rfl⟩, rfl⟩, _, represents, same⟩

/-- Deleting a peer at the service is the deployment's call. -/
theorem deletePeer {reason : String} (holds : Holds sfuAddr runtime world)
    (run : (SfuServiceImpl.deletePeer roomId participantId).Runs SfuRuntime.exec runtime response
      after) :
    ∃ later, Observes sfuAddr response (.deletePeer roomId participantId reason) world later ∧
      Holds sfuAddr after later := by
  obtain ⟨peers, represents, same⟩ := holds
  obtain ⟨removed, middle, removes, run⟩ := runs_bind.mp run
  obtain ⟨-, represents⟩ := @Represents.removePeer _ _ _ represents _ _ _ removes
  obtain ⟨rfl, rfl⟩ := run
  refine ⟨_, ⟨rfl, rfl⟩, _, represents, ?_⟩
  intro otherRoom otherParticipant
  rw [Finset.mem_erase, same, ← Finmap.lookup_isSome, ← Finmap.lookup_isSome, lookup_erase_if]
  by_cases gone : (otherRoom, otherParticipant) = (roomId, participantId)
  · simp [gone]
  · simp [gone]

/-- Looking for a session changes nothing. -/
theorem found (holds : Holds sfuAddr runtime world) {session : Option PeerSession}
    (run : (RuntimeCall.findPeerSession roomId participantId).Runs SfuRuntime.exec runtime session
      after) : Holds sfuAddr after world := by
  obtain ⟨peers, represents, same⟩ := holds
  exact ⟨peers, (@Represents.findPeerSession _ _ _ represents _ _ _ run).2, same⟩

/-- What is responded to a request about media does not matter to the peers. -/
theorem handleSdp {sdpType : ℤ} (holds : Holds sfuAddr runtime world)
    (run : (SfuServiceImpl.handleSdp roomId participantId sdpType media).Runs SfuRuntime.exec
      runtime response after) : Holds sfuAddr after world := by
  obtain ⟨session, middle, finds, run⟩ := runs_bind.mp run
  have kept := holds.found finds
  suffices unchanged : after = middle by
    rw [unchanged]
    exact kept
  cases found : session.map media with
  | none =>
      rw [found] at run
      exact run.2
  | some session =>
      rw [found] at run
      dsimp only at run
      split at run
      · exact run.2
      · split at run
        · exact run.2
        · split at run
          · exact run.2
          · split at run <;> exact run.2

/-- A candidate changes no peer. -/
theorem addIceCandidate (holds : Holds sfuAddr runtime world)
    (run : (SfuServiceImpl.addIceCandidate roomId participantId media).Runs SfuRuntime.exec runtime
      response after) : Holds sfuAddr after world := by
  obtain ⟨session, middle, finds, run⟩ := runs_bind.mp run
  have kept := holds.found finds
  suffices unchanged : after = middle by
    rw [unchanged]
    exact kept
  cases found : session.map media with
  | none =>
      rw [found] at run
      exact run.2
  | some session =>
      rw [found] at run
      dsimp only at run
      split at run <;> exact run.2

/-- The peers of one signaling node are gone. -/
theorem endSubscription {signalingId : SignalingId} (holds : Holds sfuAddr runtime world)
    (run : (SfuServiceImpl.endSubscription signalingId).Runs SfuRuntime.exec runtime () after) :
    ∃ later, (ServiceCall.endSubscription signalingId).Observed sfuAddr world later ∧
      Holds sfuAddr after later := by
  obtain ⟨peers, represents, same⟩ := holds
  obtain ⟨removed, middle, removes, run⟩ := runs_bind.mp run
  obtain ⟨-, rfl⟩ := run
  obtain ⟨left, effect, represents⟩ :=
    @Represents.removePeersBySignaling _ _ _ represents _ _ removes
  have part : ∀ peer, peer ∈ left → peer ∈ peers := by
    intro peer member
    rw [Served.Effect] at effect
    split at effect
    · rwa [effect.2] at member
    · rw [effect.2, ← Finmap.lookup_isSome, lookup_filter] at member
      rw [← Finmap.lookup_isSome]
      cases found : peers.lookup peer with
      | none =>
          rw [found] at member
          exact member
      | some owner => rfl
  let stays (peer : Address × RoomId × PeerId) : Prop := peer.1 = sfuAddr → peer.2 ∈ left
  refine ⟨{ world with sfuPeers := world.sfuPeers.filter stays }, ⟨?_, ?_⟩, left, represents, ?_⟩
  · exact .lose (Finset.filter_subset _ _)
  · intro peer member other
    exact Finset.mem_filter.mpr ⟨member, fun here => absurd here other⟩
  · intro roomId participantId
    rw [Finset.mem_filter, same]
    exact ⟨fun both => both.2 rfl, fun member => ⟨part _ member, fun _ => member⟩⟩

/-- **Step lemma.** Every call of the service is a step of the deployment. -/
theorem step (call : ServiceCall) (before after : SfuRuntime) (world : World)
    (holds : Holds sfuAddr before world) (step : call.Step before after) :
    ∃ later, call.Observed sfuAddr world later ∧ Holds sfuAddr after later := by
  cases call with
  | endSubscription signalingId => exact holds.endSubscription step
  | serve init media request response =>
      cases request with
      | createPeer roomId participantId signalingId => exact holds.createPeer step
      | deletePeer roomId participantId reason => exact holds.deletePeer step
      | handleSdp roomId participantId sdp sdpType =>
          exact ⟨world, fun text _ => ⟨⟨_, rfl⟩, rfl⟩, holds.handleSdp step⟩
      | addIceCandidate roomId participantId candidate sdpMid =>
          exact ⟨world, ⟨⟨_, rfl⟩, rfl⟩, holds.addIceCandidate step⟩

end Holds

end Callifornia.Sfu
