import Callifornia.Sfu.EventRouter
import Callifornia.Sfu.PeerMap

/-! # Cleaning up after a stream

When a stream is cancelled its handler gives up its own subscriber, and then removes
every peer of its signaling node. A newer stream of the node loses its peers this way
if there are any while the older stream has still to clean up.
-/

namespace Callifornia.Sfu

open FiniteMap Concurrency

/-- How far a handler of `SubscribeEvents` is. -/
inductive Stage
  | serving
  | cancelled
  | unregistered
  | returned
  deriving DecidableEq

structure Handler where
  signalingId : SignalingId
  stage : Stage := .serving
  deriving DecidableEq

/-- The subscriber of a handler is its position: a newer handler comes later. -/
structure SfuService (SFUEvent : Type) where
  router : EventRouter SFUEvent := {}
  runtime : SfuRuntime := {}
  handlers : List Handler := []

inductive Action
  | subscribe (signalingId : SignalingId)
  | cancel (sub : SubscriberId)
  | unregister (sub : SubscriberId)
  | cleanUp (sub : SubscriberId) (removed : ℕ)
  | createPeer (roomId : RoomId) (participantId : PeerId) (signalingId : SignalingId)
      (init result : Except String Unit)

variable {SFUEvent : Type}

namespace SfuService

variable (service : SfuService SFUEvent)

/-- The handler has reached this stage. -/
def At (sub : SubscriberId) (signalingId : SignalingId) (stage : Stage) : Prop :=
  service.handlers[sub]? = some { signalingId, stage }

def advance (sub : SubscriberId) (signalingId : SignalingId) (stage : Stage) : List Handler :=
  service.handlers.set sub { signalingId, stage }

/-- A handler of the node has still to clean up, and is older than this one. -/
def Lingers (signalingId : SignalingId) (newer : SubscriberId) : Prop :=
  ∃ sub < newer, ∃ stage, stage ≠ .returned ∧ service.At sub signalingId stage

/-- A handler of the node is registered, and an older one has still to clean up. -/
def Overlapped (signalingId : SignalingId) : Prop :=
  ∃ newer, service.router.subscribers.lookup signalingId = some newer ∧
    service.Lingers signalingId newer

/-- A peer belongs to the node. -/
def Peopled (signalingId : SignalingId) : Prop :=
  signalingId ≠ "" ∧ ∃ peer, service.runtime.owner peer = some signalingId

end SfuService

/-- Each call of the router and of the runtime is one step. -/
def Action.Step : Action → SfuService SFUEvent → SfuService SFUEvent → Prop
  | .subscribe signalingId, before, after =>
      after =
        { before with
          router := (before.router.registerSignaling signalingId before.handlers.length).2
          handlers := before.handlers ++ [{ signalingId }] }
  | .cancel sub, before, after => ∃ signalingId, before.At sub signalingId .serving ∧
      after = { before with handlers := before.advance sub signalingId .cancelled }
  | .unregister sub, before, after => ∃ signalingId, before.At sub signalingId .cancelled ∧
      after =
        { before with
          router := before.router.unregisterSignaling signalingId sub
          handlers := before.advance sub signalingId .unregistered }
  | .cleanUp sub removed, before, after => ∃ signalingId runtime,
      before.At sub signalingId .unregistered ∧
      (Served.removePeersBySignaling signalingId removed).Step before.runtime runtime ∧
      after = { before with runtime, handlers := before.advance sub signalingId .returned }
  | .createPeer roomId participantId signalingId init result, before, after => ∃ runtime,
      (Served.addPeer roomId participantId signalingId init result).Step before.runtime runtime ∧
      after = { before with runtime }

/-- While an older handler of a node has still to clean up, the node subscribes only without
peers, and creates peers only without a newer subscription. -/
def Action.Apart (action : Action) (before : SfuService SFUEvent) : Prop :=
  match action with
  | .subscribe signalingId =>
      before.Lingers signalingId before.handlers.length → ¬ before.Peopled signalingId
  | .createPeer _ _ signalingId _ _ => signalingId ≠ "" → ¬ before.Overlapped signalingId
  | _ => True

/-- A step that meets the condition. -/
def Action.ApartStep (action : Action) (before after : SfuService SFUEvent) : Prop :=
  action.Apart before ∧ action.Step before after

namespace SfuService

variable {service : SfuService SFUEvent}

/-- Moving a handler on makes no handler linger. -/
theorem lingers_advance {sub newer : SubscriberId} {signalingId query : SignalingId}
    {stage next : Stage} (here : service.At sub signalingId stage) (pending : stage ≠ .returned)
    {after : SfuService SFUEvent} (handlers : after.handlers = service.advance sub signalingId next)
    (lingers : after.Lingers query newer) : service.Lingers query newer := by
  obtain ⟨older, before, held, unfinished, found⟩ := lingers
  rw [At, handlers, advance, List.getElem?_set] at found
  split at found
  · rename_i same
    subst same
    split at found
    · cases found
      exact ⟨sub, before, stage, pending, here⟩
    · cases found
  · exact ⟨older, before, held, unfinished, found⟩

/-- An older handler of the node was there before a new handler. -/
theorem lingers_subscribe {newer : SubscriberId} {signalingId query : SignalingId}
    {after : SfuService SFUEvent}
    (handlers : after.handlers = service.handlers ++ [({ signalingId } : Handler)])
    (other : query ≠ signalingId ∨ newer = service.handlers.length)
    (lingers : after.Lingers query newer) : service.Lingers query newer := by
  obtain ⟨older, before, held, unfinished, found⟩ := lingers
  refine ⟨older, before, held, unfinished, ?_⟩
  rw [At, handlers] at found
  by_cases known : older < service.handlers.length
  · rwa [List.getElem?_append_left known] at found
  · rw [List.getElem?_append_right (Nat.le_of_not_lt known)] at found
    rcases other with apart | rfl
    · have new := List.mem_of_getElem? found
      cases List.mem_singleton.mp new
      exact absurd rfl apart
    · exact absurd before known

/-- The rooms and the index are views of one map, and no node has peers while an older
handler than the registered one has still to clean up. -/
structure Settled (service : SfuService SFUEvent) : Prop where
  represents : ∃ peers, Represents service.runtime peers
  apart : ∀ signalingId, service.Overlapped signalingId → ¬ service.Peopled signalingId

namespace Settled

variable {after : SfuService SFUEvent}

/-- Nothing is added to the runtime, to the subscribers or to the handlers that linger. -/
theorem fewer (settled : service.Settled) (represents : ∃ peers, Represents after.runtime peers)
    (peopled : ∀ signalingId, after.Peopled signalingId → service.Peopled signalingId)
    (subscribers : ∀ signalingId sub, after.router.subscribers.lookup signalingId = some sub →
      service.router.subscribers.lookup signalingId = some sub)
    (lingers : ∀ signalingId newer, after.Lingers signalingId newer →
      service.Lingers signalingId newer) : after.Settled := by
  refine ⟨represents, fun signalingId overlapped inhabited => ?_⟩
  obtain ⟨newer, registered, late⟩ := overlapped
  exact settled.apart signalingId ⟨newer, subscribers signalingId newer registered,
    lingers signalingId newer late⟩ (peopled signalingId inhabited)

/-- What is left of the peers after a clean-up. -/
theorem owner_cleanUp {runtime : SfuRuntime} {signalingId : SignalingId} {removed : ℕ}
    (settled : service.Settled)
    (step : (Served.removePeersBySignaling signalingId removed).Step service.runtime runtime) :
    (∃ peers, Represents runtime peers) ∧ ∀ peer, runtime.owner peer =
      if signalingId ≠ "" ∧ service.runtime.owner peer = some signalingId then none
      else service.runtime.owner peer := by
  obtain ⟨peers, represents⟩ := settled.represents
  obtain ⟨later, effect, kept⟩ := represents.removePeersBySignaling step
  refine ⟨⟨later, kept⟩, fun peer => ?_⟩
  simp only [Served.Effect] at effect
  by_cases unnamed : signalingId = ""
  · rw [if_pos unnamed] at effect
    rw [if_neg (fun named => named.1 unnamed), ← kept.owner, effect.2, represents.owner]
  · rw [if_neg unnamed] at effect
    rw [← kept.owner, effect.2, lookup_filter, represents.owner]
    cases service.runtime.owner peer with
    | none => simp
    | some owner => by_cases same : owner = signalingId <;> simp [same, unnamed]

theorem subscribe (settled : service.Settled) {signalingId : SignalingId}
    (apart : service.Lingers signalingId service.handlers.length → ¬ service.Peopled signalingId) :
    Settled
      { service with
        router := (service.router.registerSignaling signalingId service.handlers.length).2
        handlers := service.handlers ++ [{ signalingId }] } := by
  refine ⟨settled.represents, fun query ⟨newer, registered, late⟩ inhabited => ?_⟩
  simp only [EventRouter.registerSignaling, lookup_insert_if] at registered
  by_cases same : query = signalingId
  · subst same
    rw [if_pos rfl] at registered
    cases registered
    exact apart (lingers_subscribe rfl (.inr rfl) late) inhabited
  · rw [if_neg same] at registered
    exact settled.apart query ⟨newer, registered, lingers_subscribe rfl (.inl same) late⟩ inhabited

theorem createPeer (settled : service.Settled) {runtime : SfuRuntime} {roomId : RoomId}
    {participantId : PeerId} {signalingId : SignalingId} {init result : Except String Unit}
    (apart : signalingId ≠ "" → ¬ service.Overlapped signalingId)
    (step : (Served.addPeer roomId participantId signalingId init result).Step service.runtime
      runtime) : Settled { service with runtime } := by
  obtain ⟨peers, represents⟩ := settled.represents
  obtain ⟨later, effect, kept⟩ := represents.addPeer step
  refine ⟨⟨later, kept⟩, fun query overlapped ⟨named, peer, own⟩ => ?_⟩
  have overlapped : service.Overlapped query := overlapped
  have own : runtime.owner peer = some query := own
  rw [← kept.owner] at own
  simp only [Served.Effect] at effect
  split at effect
  · rw [effect.2, lookup_insert_if] at own
    split at own
    · cases own
      exact apart named overlapped
    · rw [represents.owner] at own
      exact settled.apart query overlapped ⟨named, peer, own⟩
  · rw [effect.2, represents.owner] at own
    exact settled.apart query overlapped ⟨named, peer, own⟩

theorem cleanUp (settled : service.Settled) {sub : SubscriberId} {signalingId : SignalingId}
    {runtime : SfuRuntime} {removed : ℕ} (here : service.At sub signalingId .unregistered)
    (step : (Served.removePeersBySignaling signalingId removed).Step service.runtime runtime) :
    Settled { service with runtime, handlers := service.advance sub signalingId .returned } := by
  obtain ⟨represents, owner⟩ := settled.owner_cleanUp step
  refine settled.fewer represents ?_ (fun _ _ found => found)
    (fun _ _ => lingers_advance here nofun rfl)
  intro query ⟨named, peer, own⟩
  have own : runtime.owner peer = some query := own
  rw [owner] at own
  split at own
  · cases own
  · exact ⟨named, peer, own⟩

/-- **Step lemma.** -/
theorem step (action : Action) (before after : SfuService SFUEvent) (settled : before.Settled)
    (step : action.ApartStep before after) : after.Settled := by
  obtain ⟨apart, step⟩ := step
  cases action with
  | subscribe signalingId =>
      cases (show after = _ from step)
      exact settled.subscribe apart
  | cancel sub =>
      obtain ⟨signalingId, here, rfl⟩ := step
      exact settled.fewer settled.represents (fun _ inhabited => inhabited) (fun _ _ found => found)
        (fun _ _ => lingers_advance here nofun rfl)
  | unregister sub =>
      obtain ⟨signalingId, here, rfl⟩ := step
      exact settled.fewer settled.represents (fun _ inhabited => inhabited)
        (fun _ _ => EventRouter.subscribers_unregisterSignaling _ _)
        (fun _ _ => lingers_advance here nofun rfl)
  | cleanUp sub removed =>
      obtain ⟨signalingId, runtime, here, removes, rfl⟩ := step
      exact settled.cleanUp here removes
  | createPeer roomId participantId signalingId init result =>
      obtain ⟨runtime, adds, rfl⟩ := step
      exact settled.createPeer apart adds

theorem start : ({} : SfuService SFUEvent).Settled where
  represents := ⟨∅, Represents.empty⟩
  apart _ overlapped := by
    obtain ⟨newer, registered, -⟩ := overlapped
    rw [Finmap.lookup_empty] at registered
    cases registered

end Settled

end SfuService

/-- A peer is gone. -/
def SfuService.Removes (before after : SfuService SFUEvent) : Prop :=
  ∃ peer, (before.runtime.owner peer).isSome = true ∧ after.runtime.owner peer = none

/-- **A clean-up spares the peers of a newer stream**, if the lifetimes of the streams of a
node overlap only while the node has no peers. -/
theorem cleanUp_spares_newer {actions : List Action} {before after : SfuService SFUEvent}
    (run : Runs Action.ApartStep {} actions before) {sub newer : SubscriberId} {removed : ℕ}
    (step : (Action.cleanUp sub removed).ApartStep before after) (removes : before.Removes after)
    (later : sub < newer) {signalingId : SignalingId}
    (here : before.At sub signalingId .unregistered) :
    before.router.subscribers.lookup signalingId ≠ some newer := by
  have settled := run.invariant SfuService.Settled.step SfuService.Settled.start
  obtain ⟨-, own, runtime, held, cleans, rfl⟩ := step
  cases held.symm.trans here
  obtain ⟨peer, owned, gone⟩ := removes
  obtain ⟨-, owner⟩ := settled.owner_cleanUp cleans
  intro registered
  refine settled.apart signalingId ⟨newer, registered, sub, later, .unregistered, nofun, here⟩ ?_
  have gone : runtime.owner peer = none := gone
  rw [owner] at gone
  split at gone
  · rename_i mine
    exact ⟨mine.1, peer, mine.2⟩
  · rw [gone] at owned
    cases owned

/-- A node with a peer, whose stream is over. -/
def abandoned : SfuService ℕ where
  router := (({} : EventRouter ℕ).registerSignaling "node-1" 0).2.unregisterSignaling "node-1" 0
  runtime := occupiedByAlice
  handlers := [{ signalingId := "node-1", stage := .unregistered }]

theorem abandoned_owner : (abandoned.runtime.owner ("room-1", "alice")).isSome = true ∧
    leftByAlice.owner ("room-1", "alice") = none := by
  decide +kernel

/-- The peers of a stream are removed when it is cancelled. -/
theorem cleanUp_spares_newer_alone : ∃ after : SfuService ℕ,
    abandoned.Removes after ∧ abandoned.router.subscribers.lookup "node-1" ≠ some 1 := by
  have run : Runs Action.ApartStep {}
      [.subscribe "node-1", .createPeer "room-1" "alice" "node-1" (.ok ()) (.ok ()), .cancel 0,
        .unregister 0] abandoned := by
    refine .cons ⟨?_, rfl⟩ (.cons ⟨?_, _, occupiedByAlice_joins, rfl⟩
      (.cons ⟨trivial, "node-1", rfl, rfl⟩ (.cons ⟨trivial, "node-1", rfl, rfl⟩ .nil)))
    · rintro ⟨older, before, -⟩
      exact absurd before (Nat.not_lt_zero older)
    · rintro - ⟨newer, registered, older, before, -⟩
      cases (show some 0 = some newer from registered)
      exact absurd before (Nat.not_lt_zero older)
  have step : (Action.cleanUp 0 1).ApartStep abandoned
      { abandoned with
        runtime := leftByAlice
        handlers := [{ signalingId := "node-1", stage := .returned }] } :=
    ⟨trivial, "node-1", leftByAlice, rfl, occupiedByAlice_leaves, rfl⟩
  have removes : abandoned.Removes
      { abandoned with
        runtime := leftByAlice
        handlers := [{ signalingId := "node-1", stage := .returned }] } :=
    ⟨("room-1", "alice"), abandoned_owner⟩
  exact ⟨_, removes, cleanUp_spares_newer run step removes Nat.zero_lt_one rfl⟩

/-- A node with a peer, whose first stream is over and whose second is served. -/
def resubscribed : SfuService ℕ where
  router := ((({} : EventRouter ℕ).registerSignaling "node-1" 0).2.registerSignaling "node-1" 1).2
  runtime := occupiedByAlice
  handlers := [{ signalingId := "node-1", stage := .unregistered }, { signalingId := "node-1" }]

/-- The subscriber of the second stream is not the first one, and stays. -/
theorem resubscribed_unregister :
    resubscribed.router.unregisterSignaling "node-1" 0 = resubscribed.router :=
  if_neg (by decide +kernel)

/-- **A clean-up removes the peers of a newer stream**: the node has subscribed again before
the handler of its first stream has noticed the cancellation. -/
theorem torn_down : ∃ actions, ∃ before after : SfuService ℕ, Runs Action.Step {} actions before ∧
    (Action.cleanUp 0 1).Step before after ∧ before.Removes after ∧
      before.At 0 "node-1" .unregistered ∧
      before.router.subscribers.lookup "node-1" = some 1 := by
  have run : Runs Action.Step {} [.subscribe "node-1", .cancel 0, .subscribe "node-1",
      .createPeer "room-1" "alice" "node-1" (.ok ()) (.ok ()), .unregister 0] resubscribed := by
    refine .cons rfl (.cons ⟨"node-1", rfl, rfl⟩ (.cons rfl
      (.cons ⟨_, occupiedByAlice_joins, rfl⟩ (.cons ⟨"node-1", rfl, ?_⟩ .nil))))
    exact congrArg (fun router => { resubscribed with router }) resubscribed_unregister.symm
  have step : (Action.cleanUp 0 1).Step resubscribed
      { resubscribed with
        runtime := leftByAlice
        handlers := resubscribed.advance 0 "node-1" .returned } :=
    ⟨"node-1", leftByAlice, rfl, occupiedByAlice_leaves, rfl⟩
  refine ⟨_, _, _, run, step, ⟨("room-1", "alice"), abandoned_owner⟩, rfl, ?_⟩
  decide +kernel

end Callifornia.Sfu
