import Callifornia.Concurrency.Interleaving
import Callifornia.Sfu.Room

/-! # The event router of an SFU

Events of a peer are routed to the stream of the signaling node that owns it, or
queued until the node subscribes. A call looks up or changes the tables in one
section under the mutex of the router, and writes each event in a section under the
mutex of a subscriber.
-/

namespace Callifornia.Sfu

open FiniteMap Concurrency

/-- The identity of a subscriber object. -/
abbrev SubscriberId := ℕ

/-- A server writer, owned by the handler of one `SubscribeEvents` call. -/
abbrev Stream := ℕ

def maxPendingEvents : ℕ := 128

variable {SFUEvent : Type}

structure EventRouter (SFUEvent : Type) where
  subscribers : Map SignalingId SubscriberId := ∅
  pending : Map SignalingId (List SFUEvent) := ∅

/-- Drop the oldest events while there are too many; what is dropped, and what is kept. -/
def trim : List SFUEvent → List SFUEvent × List SFUEvent
  | [] => ([], [])
  | event :: queue =>
      if (event :: queue).length > maxPendingEvents then
        (event :: (trim queue).1, (trim queue).2)
      else ([], event :: queue)

namespace EventRouter

variable (router : EventRouter SFUEvent)

/-- The events that wait for a signaling node. -/
def queue (signalingId : SignalingId) : List SFUEvent :=
  (router.pending.lookup signalingId).getD []

/-- The first section of `registerSignaling`: the backlog, and the router without it. -/
def registerSignaling (signalingId : SignalingId) (sub : SubscriberId) :
    List SFUEvent × EventRouter SFUEvent :=
  (router.queue signalingId,
    { subscribers := router.subscribers.insert signalingId sub
      pending := router.pending.erase signalingId })

def unregisterSignaling (signalingId : SignalingId) (sub : SubscriberId) :
    EventRouter SFUEvent :=
  if router.subscribers.lookup signalingId = some sub then
    { router with subscribers := router.subscribers.erase signalingId }
  else router

/-- Queue an event; what is dropped for it. -/
def enqueue (signalingId : SignalingId) (event : SFUEvent) :
    List SFUEvent × EventRouter SFUEvent :=
  ((trim (router.queue signalingId ++ [event])).1,
    { router with
      pending := router.pending.insert signalingId (trim (router.queue signalingId ++ [event])).2 })

end EventRouter

/-- What happens to the events of a router, in the order in which it happens. -/
inductive Occurrence (SFUEvent : Type)
  | routed (signalingId : SignalingId) (event : SFUEvent)
  | queued (signalingId : SignalingId) (event : SFUEvent)
  | evicted (signalingId : SignalingId) (event : SFUEvent)
  | registered (signalingId : SignalingId) (sub : SubscriberId)
  | written (signalingId : SignalingId) (stream : Stream) (event : SFUEvent) (ok : Bool)
  | returned (stream : Stream)
  deriving DecidableEq

/-- A router with the writers its subscribers hold, and what has happened. A subscriber
without an entry has a null writer. -/
structure EventService (SFUEvent : Type) where
  router : EventRouter SFUEvent := {}
  writer : Map SubscriberId Stream := ∅
  log : List (Occurrence SFUEvent) := []

/-- What a call does in one section. -/
inductive RouterStep (SFUEvent : Type)
  | subscribe (stream : Stream)
  | registerSignaling (signalingId : SignalingId) (sub : SubscriberId)
  | unregisterSignaling (signalingId : SignalingId) (sub : SubscriberId)
  | routeEvent (signalingId : SignalingId) (event : SFUEvent)
  | write (signalingId : SignalingId) (sub : SubscriberId) (event : SFUEvent)
  | return (stream : Stream)

/-- A section of `routeEvent` finds a subscriber or queues the event; a write has no
answer if the writer is null. -/
abbrev RouterStep.Reply : RouterStep SFUEvent → Type
  | .subscribe _ => SubscriberId
  | .registerSignaling .. => List SFUEvent
  | .unregisterSignaling .. => Unit
  | .routeEvent .. => Option SubscriberId
  | .write .. => Option Bool
  | .return _ => Unit

namespace EventService

variable (service : EventService SFUEvent)

/-- The first section of `routeEvent`. -/
def routeEvent (signalingId : SignalingId) (event : SFUEvent) :
    Option SubscriberId × EventService SFUEvent :=
  match service.router.subscribers.lookup signalingId with
  | some sub => (some sub, { service with log := service.log ++ [.routed signalingId event] })
  | none =>
      (none,
        { service with
          router := (service.router.enqueue signalingId event).2
          log := service.log ++ .routed signalingId event :: .queued signalingId event ::
            (service.router.enqueue signalingId event).1.map (.evicted signalingId) })

/-- The effect of a section, given the answers that `Write` may return. -/
def exec (answers : Bool → Prop) :
    (step : RouterStep SFUEvent) → EventService SFUEvent → step.Reply →
      EventService SFUEvent → Prop
  | .subscribe stream, service, sub, after =>
      sub ∉ service.writer ∧ after = { service with writer := service.writer.insert sub stream }
  | .registerSignaling signalingId sub, service, backlog, after =>
      backlog = (service.router.registerSignaling signalingId sub).1 ∧
        after =
          { service with
            router := (service.router.registerSignaling signalingId sub).2
            log := service.log ++ [.registered signalingId sub] }
  | .unregisterSignaling signalingId sub, service, _, after =>
      after = { service with router := service.router.unregisterSignaling signalingId sub }
  | .routeEvent signalingId event, service, found, after =>
      (found, after) = service.routeEvent signalingId event
  | .write signalingId sub event, service, reply, after =>
      match service.writer.lookup sub with
      | none => reply = none ∧ after = service
      | some stream => ∃ ok, answers ok ∧ reply = some ok ∧
          after = { service with log := service.log ++ [.written signalingId stream event ok] }
  | .return stream, service, _, after =>
      after = { service with log := service.log ++ [.returned stream] }

end EventService

/-! ## Calls -/

abbrev RouterCall (SFUEvent : Type) := Program (RouterStep SFUEvent) RouterStep.Reply

namespace RouterCall

def perform (step : RouterStep SFUEvent) : RouterCall SFUEvent step.Reply := Program.perform step

/-- True if the event was delivered or queued. -/
def routeEvent (signalingId : SignalingId) (event : SFUEvent) : RouterCall SFUEvent Bool := do
  match ← perform (.routeEvent signalingId event) with
  | none => return true
  | some sub =>
      match ← perform (.write signalingId sub event) with
      | none => return false
      | some ok => return ok

/-- Write a backlog event by event; a failing write ends it, a null writer does not. -/
def flush (signalingId : SignalingId) (sub : SubscriberId) :
    List SFUEvent → RouterCall SFUEvent Unit
  | [] => return ()
  | event :: pendingBatch => do
      match ← perform (.write signalingId sub event) with
      | some false => return ()
      | _ => flush signalingId sub pendingBatch

def registerSignaling (signalingId : SignalingId) (sub : SubscriberId) :
    RouterCall SFUEvent Unit := do
  let pendingBatch ← perform (.registerSignaling signalingId sub)
  flush signalingId sub pendingBatch

def unregisterSignaling (signalingId : SignalingId) (sub : SubscriberId) :
    RouterCall SFUEvent Unit :=
  perform (.unregisterSignaling signalingId sub)

/-- The handler of a stream, up to the clean-up of the runtime that follows when the
stream is cancelled. -/
def subscribeEvents (signalingId : SignalingId) (stream : Stream) : RouterCall SFUEvent Unit := do
  let sub ← perform (.subscribe stream)
  registerSignaling signalingId sub
  unregisterSignaling signalingId sub
  perform (.return stream)

end RouterCall

/-! ## The history of a router -/

namespace Occurrence

def routedEvent (signalingId : SignalingId) : Occurrence SFUEvent → Option SFUEvent
  | .routed target event => if target = signalingId then some event else none
  | _ => none

def evictedEvent (signalingId : SignalingId) : Occurrence SFUEvent → Option SFUEvent
  | .evicted target event => if target = signalingId then some event else none
  | _ => none

def writtenEvent (signalingId : SignalingId) : Occurrence SFUEvent → Option SFUEvent
  | .written target _ event _ => if target = signalingId then some event else none
  | _ => none

/-- The events routed to a signaling node. -/
def routedTo (signalingId : SignalingId) (log : List (Occurrence SFUEvent)) : List SFUEvent :=
  log.filterMap (routedEvent signalingId)

/-- The events dropped from the queue of a signaling node. -/
def evictedFrom (signalingId : SignalingId) (log : List (Occurrence SFUEvent)) : List SFUEvent :=
  log.filterMap (evictedEvent signalingId)

/-- The events of a signaling node that were written. -/
def writtenFor (signalingId : SignalingId) (log : List (Occurrence SFUEvent)) : List SFUEvent :=
  log.filterMap (writtenEvent signalingId)

/-- What an occurrence makes of the events that wait for a signaling node. -/
def waits (signalingId : SignalingId) (queue : List SFUEvent) :
    Occurrence SFUEvent → List SFUEvent
  | .queued target event => if target = signalingId then queue ++ [event] else queue
  | .evicted target _ => if target = signalingId then queue.tail else queue
  | .registered target _ => if target = signalingId then [] else queue
  | _ => queue

/-- The events that wait for a signaling node after all that has happened. -/
def waitingFor (signalingId : SignalingId) (log : List (Occurrence SFUEvent)) : List SFUEvent :=
  log.foldl (waits signalingId) []

/-- Every event that was dropped was the oldest of a queue that held more than it may. -/
def DropsOldest (log : List (Occurrence SFUEvent)) : Prop :=
  ∀ signalingId earlier event later, log = earlier ++ .evicted signalingId event :: later →
    ∃ rest, waitingFor signalingId earlier = event :: rest ∧
      maxPendingEvents < (event :: rest).length

/-- The occurrence is a write to this stream. -/
def On (stream : Stream) : Occurrence SFUEvent → Bool
  | .written _ actual _ _ => actual = stream
  | _ => false

end Occurrence

/-- The oldest events are dropped, as many as there are too many. -/
theorem trim_eq (queue : List SFUEvent) :
    trim queue = (queue.take (queue.length - maxPendingEvents),
      queue.drop (queue.length - maxPendingEvents)) := by
  induction queue with
  | nil => simp [trim]
  | cons event queue ih =>
      unfold trim
      by_cases full : (event :: queue).length > maxPendingEvents
      · rw [if_pos full, ih]
        rw [List.length_cons] at full ⊢
        have more : queue.length + 1 - maxPendingEvents =
            queue.length - maxPendingEvents + 1 := by omega
        rw [more, List.take_succ_cons, List.drop_succ_cons]
      · rw [if_neg full, Nat.sub_eq_zero_of_le (Nat.le_of_not_lt full), List.take_zero,
          List.drop_zero]

theorem trim_append (queue : List SFUEvent) : (trim queue).1 ++ (trim queue).2 = queue := by
  simp only [trim_eq, List.take_append_drop]

theorem trim_sublist (queue : List SFUEvent) : List.Sublist (trim queue).2 queue := by
  have kept := List.sublist_append_right (trim queue).1 (trim queue).2
  rwa [trim_append] at kept

theorem trim_length (queue : List SFUEvent) : (trim queue).2.length ≤ maxPendingEvents := by
  rw [trim_eq, List.length_drop]
  omega

namespace EventRouter

variable (router : EventRouter SFUEvent) (signalingId : SignalingId)

theorem queue_registerSignaling (sub : SubscriberId) (query : SignalingId) :
    (router.registerSignaling signalingId sub).2.queue query =
      if query = signalingId then [] else router.queue query := by
  simp only [queue, registerSignaling, lookup_erase_if]
  split <;> rfl

theorem queue_enqueue (event : SFUEvent) (query : SignalingId) :
    (router.enqueue signalingId event).2.queue query =
      if query = signalingId then (trim (router.queue signalingId ++ [event])).2
      else router.queue query := by
  simp only [queue, enqueue, lookup_insert_if]
  split <;> rfl

theorem queue_unregisterSignaling (sub : SubscriberId) :
    (router.unregisterSignaling signalingId sub).pending = router.pending := by
  unfold unregisterSignaling
  split <;> rfl

theorem subscribers_unregisterSignaling {sub other : SubscriberId} {query : SignalingId}
    (found : (router.unregisterSignaling signalingId sub).subscribers.lookup query = some other) :
    router.subscribers.lookup query = some other := by
  unfold unregisterSignaling at found
  split at found
  · simp only [lookup_erase_if] at found
    split at found
    · cases found
    · exact found
  · exact found

end EventRouter

end Callifornia.Sfu
