import Callifornia.Concurrency.Replay
import Callifornia.Sfu.EventRouter

/-! # Concurrent calls of the event router

Any number of calls run at once, section by section. An invariant of the router
holds in every reachable state when it survives each kind of section, whichever call
executes it.
-/

namespace Callifornia.Sfu

open FiniteMap Concurrency Concurrency.System

variable {SFUEvent : Type}

/-- What a call has in hand: it is about to route or to register, or it carries events
that it has still to write to a subscriber. -/
inductive RouterPhase (SFUEvent : Type)
  | idle
  | routing (signalingId : SignalingId)
  | registering (sub : SubscriberId)
  | carrying (routes : Bool) (signalingId : SignalingId) (sub : SubscriberId)
      (events : List SFUEvent)
  deriving DecidableEq

namespace RouterPhase

/-- One of the carried events is written. -/
def wrote : RouterPhase SFUEvent → RouterPhase SFUEvent
  | .carrying routes signalingId sub events => .carrying routes signalingId sub events.tail
  | phase => phase

def advance (phase : RouterPhase SFUEvent) :
    (step : RouterStep SFUEvent) → step.Reply → RouterPhase SFUEvent
  | .routeEvent signalingId event, some sub => .carrying true signalingId sub [event]
  | .registerSignaling signalingId sub, backlog => .carrying false signalingId sub backlog
  | .write .., _ => phase.wrote
  | _, _ => phase

/-- The call routes an event to this signaling node. -/
def Routes (signalingId : SignalingId) : RouterPhase SFUEvent → Prop
  | .routing target => target = signalingId
  | .carrying true target _ _ => target = signalingId
  | _ => False

/-- The call has a backlog of this signaling node left to write to this subscriber. -/
def Flushes (signalingId : SignalingId) (sub : SubscriberId) : RouterPhase SFUEvent → Prop
  | .carrying false target held (_ :: _) => target = signalingId ∧ held = sub
  | _ => False

instance (signalingId : SignalingId) :
    DecidablePred (Routes signalingId : RouterPhase SFUEvent → Prop) := by
  intro phase
  unfold Routes
  split <;> infer_instance

instance (signalingId : SignalingId) (sub : SubscriberId) :
    DecidablePred (Flushes signalingId sub : RouterPhase SFUEvent → Prop) := by
  intro phase
  unfold Flushes
  split <;> infer_instance

end RouterPhase

/-- Calls of `routeEvent`, if they may start, and of `registerSignaling` and
`unregisterSignaling`; every `Write` succeeds, and only a subscriber with a writer is
registered. New subscribers appear, each with a writer of its own. -/
def routerCalls (mayRoute : Multiset (RouterPhase SFUEvent) → SignalingId → Prop) :
    System (RouterStep SFUEvent) RouterStep.Reply where
  State := EventService SFUEvent
  Phase := RouterPhase SFUEvent
  Result := Unit
  exec := EventService.exec (· = true)
  advance := RouterPhase.advance
  start service others phase program after := after = service ∧
    ((∃ signalingId event, mayRoute others signalingId ∧ phase = .routing signalingId ∧
        program = Functor.mapConst () (RouterCall.routeEvent signalingId event)) ∨
      (∃ signalingId sub, sub ∈ service.writer ∧ phase = .registering sub ∧
        program = RouterCall.registerSignaling signalingId sub) ∨
      (∃ signalingId sub, phase = .idle ∧
        program = RouterCall.unregisterSignaling signalingId sub))
  finish service _ _ := service
  discard _ _ := False
  environment service _ after := ∃ sub stream, sub ∉ service.writer ∧
    (∀ other, service.writer.lookup other ≠ some stream) ∧
    after = { service with writer := service.writer.insert sub stream }

variable {mayRoute : Multiset (RouterPhase SFUEvent) → SignalingId → Prop}

/-- The invariant survives every section of a call. -/
structure Preserves (guard : (routerCalls mayRoute).Guard)
    (inv : EventService SFUEvent → Multiset (RouterPhase SFUEvent) → Prop) : Prop where
  found : ∀ service others signalingId event sub,
    inv service (.routing signalingId ::ₘ others) →
    service.router.subscribers.lookup signalingId = some sub →
    inv { service with log := service.log ++ [.routed signalingId event] }
      (.carrying true signalingId sub [event] ::ₘ others)
  queued : ∀ service others signalingId event, inv service (.routing signalingId ::ₘ others) →
    service.router.subscribers.lookup signalingId = none →
    inv (service.routeEvent signalingId event).2 (.routing signalingId ::ₘ others)
  written : ∀ service others routes signalingId sub event rest,
    inv service (.carrying routes signalingId sub (event :: rest) ::ₘ others) →
    guard service (.carrying routes signalingId sub (event :: rest))
      (.write signalingId sub event) others →
    ∃ stream, service.writer.lookup sub = some stream ∧
      inv { service with log := service.log ++ [.written signalingId stream event true] }
        (.carrying routes signalingId sub rest ::ₘ others)
  registered : ∀ service others signalingId sub, inv service (.registering sub ::ₘ others) →
    guard service (.registering sub) (.registerSignaling signalingId sub) others →
    inv
      { service with
        router := (service.router.registerSignaling signalingId sub).2
        log := service.log ++ [.registered signalingId sub] }
      (.carrying false signalingId sub (service.router.queue signalingId) ::ₘ others)
  unregistered : ∀ service others signalingId sub, inv service (.idle ::ₘ others) →
    inv { service with router := service.router.unregisterSignaling signalingId sub }
      (.idle ::ₘ others)
  starts : ∀ service others signalingId, inv service others → mayRoute others signalingId →
    inv service (.routing signalingId ::ₘ others)
  registers : ∀ service others sub, inv service others → sub ∈ service.writer →
    inv service (.registering sub ::ₘ others)
  rests : ∀ service others, inv service (.idle ::ₘ others) ↔ inv service others
  routed : ∀ service others signalingId, inv service (.routing signalingId ::ₘ others) →
    inv service others
  emptied : ∀ service others routes signalingId sub,
    inv service (.carrying routes signalingId sub [] ::ₘ others) → inv service others
  subscribed : ∀ service others sub stream, inv service others → sub ∉ service.writer →
    (∀ other, service.writer.lookup other ≠ some stream) →
    inv { service with writer := service.writer.insert sub stream } others

namespace Preserves

variable {guard : (routerCalls mayRoute).Guard}
  {inv : EventService SFUEvent → Multiset (RouterPhase SFUEvent) → Prop}

/-- The outline of an invariant. -/
def outline (guard : (routerCalls mayRoute).Guard)
    (inv : EventService SFUEvent → Multiset (RouterPhase SFUEvent) → Prop) :
    Outline (routerCalls mayRoute) where
  guard := guard
  inv := inv
  asserts _ _ _ := True

/-- The call has written all that it carried. -/
def Done (phase : RouterPhase SFUEvent) : Prop :=
  phase = .idle ∨ (∃ signalingId, phase = .routing signalingId) ∨
    ∃ routes signalingId sub, phase = .carrying routes signalingId sub []

theorem mayFinish (preserves : Preserves guard inv) {phase : RouterPhase SFUEvent}
    (done : Done phase) : (outline guard inv).MayFinish phase () := by
  intro service others holds
  rcases done with rfl | ⟨signalingId, rfl⟩ | ⟨routes, signalingId, sub, rfl⟩
  · exact (preserves.rests service others).mp holds
  · exact preserves.routed service others signalingId holds
  · exact preserves.emptied service others routes signalingId sub holds

/-- Writing a carried event. -/
theorem write_safe (preserves : Preserves guard inv) {routes : Bool} {signalingId : SignalingId}
    {sub : SubscriberId} {event : SFUEvent} {rest : List SFUEvent} {α : Type}
    {next : Option Bool → RouterCall SFUEvent α} {post : RouterPhase SFUEvent → α → Prop}
    (after : (outline guard inv).Safe post (.carrying routes signalingId sub rest)
      (next (some true))) :
    (outline guard inv).Safe post (.carrying routes signalingId sub (event :: rest))
      (RouterCall.perform (.write signalingId sub event) >>= next) := by
  intro service others holds allowed
  refine ⟨trivial, fun reply later effect => ?_⟩
  obtain ⟨stream, found, kept⟩ :=
    preserves.written service others routes signalingId sub event rest holds allowed
  simp only [routerCalls, EventService.exec, found] at effect
  obtain ⟨ok, rfl, rfl, rfl⟩ := effect
  exact ⟨kept, after⟩

theorem flush_safe (preserves : Preserves guard inv) (signalingId : SignalingId)
    (sub : SubscriberId) (backlog : List SFUEvent) :
    (outline guard inv).Safe (fun phase _ => Done phase)
      (.carrying false signalingId sub backlog) (RouterCall.flush signalingId sub backlog) := by
  induction backlog with
  | nil => exact .inr (.inr ⟨false, signalingId, sub, rfl⟩)
  | cons event backlog ih => exact preserves.write_safe ih

theorem registerSignaling_safe (preserves : Preserves guard inv) (signalingId : SignalingId)
    (sub : SubscriberId) :
    (outline guard inv).Safe (fun phase _ => Done phase) (.registering sub)
      (RouterCall.registerSignaling signalingId sub) := by
  intro service others holds allowed
  refine ⟨trivial, fun backlog after effect => ?_⟩
  obtain ⟨rfl, rfl⟩ := effect
  exact ⟨preserves.registered service others signalingId sub holds allowed,
    preserves.flush_safe signalingId sub _⟩

theorem routeEvent_safe (preserves : Preserves guard inv) (signalingId : SignalingId)
    (event : SFUEvent) :
    (outline guard inv).Safe (fun phase _ => Done phase) (.routing signalingId)
      (RouterCall.routeEvent signalingId event) := by
  intro service others holds _
  refine ⟨trivial, fun reply after effect => ?_⟩
  have effect : (reply, after) = service.routeEvent signalingId event := effect
  cases found : service.router.subscribers.lookup signalingId with
  | none =>
      have kept := preserves.queued service others signalingId event holds found
      rw [← effect] at kept
      simp only [EventService.routeEvent, found] at effect
      obtain ⟨rfl, -⟩ := effect
      exact ⟨kept, .inr (.inl ⟨signalingId, rfl⟩)⟩
  | some sub =>
      have kept := preserves.found service others signalingId event sub holds found
      simp only [EventService.routeEvent, found] at effect
      obtain ⟨rfl, rfl⟩ := effect
      refine ⟨kept, preserves.write_safe ?_⟩
      exact .inr (.inr ⟨true, signalingId, sub, rfl⟩)

theorem unregisterSignaling_safe (preserves : Preserves guard inv) (signalingId : SignalingId)
    (sub : SubscriberId) :
    (outline guard inv).Safe (fun phase _ => Done phase) .idle
      (RouterCall.unregisterSignaling signalingId sub) := by
  intro service others holds _
  refine ⟨trivial, fun reply after effect => ?_⟩
  have effect : after = _ := effect
  subst effect
  exact ⟨preserves.unregistered service others signalingId sub holds, .inl rfl⟩

theorem stable (preserves : Preserves guard inv) : (outline guard inv).Stable where
  start := by
    rintro service others phase program after ⟨rfl, called⟩ holds
    rcases called with ⟨signalingId, event, may, rfl, rfl⟩ |
      ⟨signalingId, sub, writable, rfl, rfl⟩ | ⟨signalingId, sub, rfl, rfl⟩
    · refine ⟨preserves.starts after others signalingId holds may, .mapConst ?_⟩
      exact (preserves.routeEvent_safe signalingId event).mono fun _ _ done =>
        preserves.mayFinish done
    · refine ⟨preserves.registers after others sub holds writable, ?_⟩
      exact (preserves.registerSignaling_safe signalingId sub).mono fun _ _ done =>
        preserves.mayFinish done
    · refine ⟨(preserves.rests after others).mpr holds, ?_⟩
      exact (preserves.unregisterSignaling_safe signalingId sub).mono fun _ _ done =>
        preserves.mayFinish done
  discard _ _ _ never := never.elim
  environment := by
    rintro service others after ⟨sub, stream, fresh, unused, rfl⟩ holds
    exact preserves.subscribed service others sub stream holds fresh unused

/-- A new router without calls. -/
def opened (mayRoute : Multiset (RouterPhase SFUEvent) → SignalingId → Prop) :
    (routerCalls mayRoute).Pool := ⟨({} : EventService SFUEvent), []⟩

/-- **Run lemma.** The invariant holds in every state that the calls reach. -/
theorem reaches (preserves : Preserves guard inv) (start : inv {} 0)
    {pool : (routerCalls mayRoute).Pool} (run : Reaches guard (opened mayRoute) pool) :
    inv pool.state (phases pool.threads) := by
  have initial : (outline guard inv).Holds (opened mayRoute) := .of_quiescent start
  exact (initial.reaches preserves.stable run).1

end Preserves

/-! ## Replaying calls -/

/-- The sections of a router whose writes succeed. -/
def sampleStep : (step : RouterStep SFUEvent) → EventService SFUEvent →
    Option (step.Reply × EventService SFUEvent)
  | .subscribe _, _ => none
  | .registerSignaling signalingId sub, service =>
      some ((service.router.registerSignaling signalingId sub).1,
        { service with
          router := (service.router.registerSignaling signalingId sub).2
          log := service.log ++ [.registered signalingId sub] })
  | .unregisterSignaling signalingId sub, service =>
      some ((), { service with router := service.router.unregisterSignaling signalingId sub })
  | .routeEvent signalingId event, service => some (service.routeEvent signalingId event)
  | .write signalingId sub event, service =>
      match service.writer.lookup sub with
      | none => some (none, service)
      | some stream =>
          some (some true,
            { service with log := service.log ++ [.written signalingId stream event true] })
  | .return stream, service => some ((), { service with log := service.log ++ [.returned stream] })

theorem sampleStep_sound {answers : Bool → Prop} (succeeds : answers true)
    {step : RouterStep SFUEvent} {service after : EventService SFUEvent} {reply : step.Reply}
    (sampled : sampleStep step service = some (reply, after)) :
    EventService.exec answers step service reply after := by
  cases step with
  | subscribe stream => cases sampled
  | registerSignaling signalingId sub =>
      cases sampled
      exact ⟨rfl, rfl⟩
  | unregisterSignaling signalingId sub =>
      cases sampled
      rfl
  | routeEvent signalingId event => exact (Option.some.inj sampled).symm
  | write signalingId sub event =>
      simp only [sampleStep] at sampled
      simp only [EventService.exec]
      cases found : service.writer.lookup sub with
      | none =>
          rw [found] at sampled
          cases sampled
          exact ⟨rfl, rfl⟩
      | some stream =>
          rw [found] at sampled
          cases sampled
          exact ⟨true, succeeds, rfl, rfl⟩
  | «return» stream =>
      cases sampled
      rfl

def routerSampler (mayRoute : Multiset (RouterPhase SFUEvent) → SignalingId → Prop) :
    (routerCalls mayRoute).Sampler Unit where
  sample _ step service := sampleStep step service
  sound sampled := @sampleStep_sound _ (· = true) rfl _ _ _ _ sampled

/-- A router whose first subscriber has a writer. -/
def withWriter : EventService ℕ := { writer := Finmap.singleton 0 7 }

theorem reaches_withWriter {mayRoute : Multiset (RouterPhase ℕ) → SignalingId → Prop}
    {guard : (routerCalls mayRoute).Guard} :
    Reaches guard (Preserves.opened mayRoute) ⟨withWriter, []⟩ := by
  refine .single (.environment ⟨0, 7, Finmap.notMem_empty, fun other found => ?_, rfl⟩)
  have none : Finmap.lookup other (∅ : Map SubscriberId Stream) = none := Finmap.lookup_empty other
  cases none.symm.trans found

end Callifornia.Sfu
