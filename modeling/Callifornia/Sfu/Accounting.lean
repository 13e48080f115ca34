import Callifornia.Sfu.RouterCalls
import Mathlib.Tactic.Abel

/-! # Every event is accounted for

An event that is routed is written to one stream of its signaling node, waits in the
queue of the node, was dropped from a full queue, or is carried by a call that has
still to write it.
-/

namespace Callifornia.Sfu

open FiniteMap Concurrency Concurrency.System Occurrence

variable {SFUEvent : Type}

/-! ## The history, one occurrence longer -/

namespace Occurrence

variable (signalingId : SignalingId)

/-- What was routed in two parts of the log. -/
@[simp] theorem routedTo_append (log more : List (Occurrence SFUEvent)) :
    routedTo signalingId (log ++ more) = routedTo signalingId log ++ routedTo signalingId more :=
  List.filterMap_append

/-- What was evicted in two parts of the log. -/
@[simp] theorem evictedFrom_append (log more : List (Occurrence SFUEvent)) :
    evictedFrom signalingId (log ++ more) =
      evictedFrom signalingId log ++ evictedFrom signalingId more :=
  List.filterMap_append

/-- What was written in two parts of the log. -/
@[simp] theorem writtenFor_append (log more : List (Occurrence SFUEvent)) :
    writtenFor signalingId (log ++ more) =
      writtenFor signalingId log ++ writtenFor signalingId more :=
  List.filterMap_append

/-- The first entry of the log, and what was routed after it. -/
@[simp] theorem routedTo_cons (occurrence : Occurrence SFUEvent)
    (log : List (Occurrence SFUEvent)) : routedTo signalingId (occurrence :: log) =
      (routedEvent signalingId occurrence).toList ++ routedTo signalingId log := by
  unfold routedTo
  rw [List.filterMap_cons]
  cases routedEvent signalingId occurrence <;> rfl

/-- The first entry of the log, and what was evicted after it. -/
@[simp] theorem evictedFrom_cons (occurrence : Occurrence SFUEvent)
    (log : List (Occurrence SFUEvent)) : evictedFrom signalingId (occurrence :: log) =
      (evictedEvent signalingId occurrence).toList ++ evictedFrom signalingId log := by
  unfold evictedFrom
  rw [List.filterMap_cons]
  cases evictedEvent signalingId occurrence <;> rfl

/-- The first entry of the log, and what was written after it. -/
@[simp] theorem writtenFor_cons (occurrence : Occurrence SFUEvent)
    (log : List (Occurrence SFUEvent)) : writtenFor signalingId (occurrence :: log) =
      (writtenEvent signalingId occurrence).toList ++ writtenFor signalingId log := by
  unfold writtenFor
  rw [List.filterMap_cons]
  cases writtenEvent signalingId occurrence <;> rfl

/-- An empty log routes nothing. -/
@[simp] theorem routedTo_nil : routedTo signalingId ([] : List (Occurrence SFUEvent)) = [] := rfl

/-- An empty log evicts nothing. -/
@[simp] theorem evictedFrom_nil :
    evictedFrom signalingId ([] : List (Occurrence SFUEvent)) = [] := rfl

/-- An empty log writes nothing. -/
@[simp] theorem writtenFor_nil :
    writtenFor signalingId ([] : List (Occurrence SFUEvent)) = [] := rfl

/-- Dropped events are recorded as such and as nothing else. -/
theorem evictions (target : SignalingId) (events : List SFUEvent) :
    evictedFrom signalingId (events.map (.evicted target)) =
        (if target = signalingId then events else []) ∧
      routedTo signalingId (events.map (.evicted target)) = [] ∧
      writtenFor signalingId (events.map (.evicted target)) = [] := by
  induction events with
  | nil => simp
  | cons event events ih =>
      obtain ⟨evicted, routed, written⟩ := ih
      rw [List.map_cons, evictedFrom_cons, routedTo_cons, writtenFor_cons, evicted, routed, written]
      refine ⟨?_, rfl, rfl⟩
      by_cases same : target = signalingId
      · simp [evictedEvent, same]
      · simp [evictedEvent, same]

end Occurrence

/-! ## The account -/

/-- The events of a signaling node that a call carries. -/
def RouterPhase.carried (signalingId : SignalingId) : RouterPhase SFUEvent → List SFUEvent
  | .carrying _ target _ events => if target = signalingId then events else []
  | _ => []

/-- The events of a signaling node that any call carries. -/
def carried (signalingId : SignalingId) (phases : Multiset (RouterPhase SFUEvent)) :
    Multiset SFUEvent :=
  (phases.map fun phase => (phase.carried signalingId : Multiset SFUEvent)).sum

/-- What one more call carries. -/
@[simp] theorem carried_cons (signalingId : SignalingId) (phase : RouterPhase SFUEvent)
    (phases : Multiset (RouterPhase SFUEvent)) :
    carried signalingId (phase ::ₘ phases) =
      phase.carried signalingId + carried signalingId phases := by
  simp [carried]

/-- A subscriber with a writer, registered for this signaling node at some time. -/
structure Subscribed (service : EventService SFUEvent) (signalingId : SignalingId)
    (sub : SubscriberId) : Prop where
  writable : sub ∈ service.writer
  registered : .registered signalingId sub ∈ service.log

/-- What a call has in hand can be written. -/
def RouterPhase.Fit (service : EventService SFUEvent) : RouterPhase SFUEvent → Prop
  | .registering sub => sub ∈ service.writer
  | .carrying _ signalingId sub _ => Subscribed service signalingId sub
  | _ => True

/-- Every event is accounted for. -/
structure Accounted (service : EventService SFUEvent)
    (phases : Multiset (RouterPhase SFUEvent)) : Prop where
  balance : ∀ signalingId, (routedTo signalingId service.log : Multiset SFUEvent) =
    writtenFor signalingId service.log + evictedFrom signalingId service.log +
      service.router.queue signalingId + carried signalingId phases
  bounded : ∀ signalingId, (service.router.queue signalingId).length ≤ maxPendingEvents
  subscribed : ∀ signalingId sub, service.router.subscribers.lookup signalingId = some sub →
    Subscribed service signalingId sub
  fit : ∀ phase ∈ phases, phase.Fit service
  delivered : ∀ signalingId stream event ok,
    .written signalingId stream event ok ∈ service.log → ok = true ∧
      ∃ sub, service.writer.lookup sub = some stream ∧ .registered signalingId sub ∈ service.log

/-- A history that only grows. -/
structure Grown (before after : EventService SFUEvent) : Prop where
  writer : ∀ sub stream, before.writer.lookup sub = some stream →
    after.writer.lookup sub = some stream
  log : before.log ⊆ after.log

namespace Grown

variable {before after : EventService SFUEvent}

/-- A registration that was made stays in the log. -/
theorem subscribed (grown : Grown before after) {signalingId : SignalingId} {sub : SubscriberId}
    (subscribed : Subscribed before signalingId sub) : Subscribed after signalingId sub := by
  obtain ⟨writable, registered⟩ := subscribed
  obtain ⟨stream, found⟩ := Finmap.mem_iff.mp writable
  exact ⟨Finmap.mem_of_lookup_eq_some (grown.writer sub stream found), grown.log registered⟩

/-- What a call relies on still holds of a longer history. -/
theorem fit (grown : Grown before after) {phase : RouterPhase SFUEvent}
    (fit : phase.Fit before) : phase.Fit after := by
  cases phase with
  | idle => trivial
  | routing signalingId => trivial
  | registering sub =>
      obtain ⟨stream, found⟩ := Finmap.mem_iff.mp fit
      exact Finmap.mem_of_lookup_eq_some (grown.writer sub stream found)
  | carrying routes signalingId sub events => exact grown.subscribed fit

/-- A longer log is a grown one. -/
theorem append (service : EventService SFUEvent) (router : EventRouter SFUEvent)
    (more : List (Occurrence SFUEvent)) :
    Grown service { service with router, log := service.log ++ more } :=
  ⟨fun _ _ found => found, fun _ member => List.mem_append_left _ member⟩

end Grown

namespace Accounted

variable {service : EventService SFUEvent} {others : Multiset (RouterPhase SFUEvent)}

/-- A section that moves events between the queues, the calls and the streams, and
records it. -/
theorem move {after : EventService SFUEvent} {phase next : RouterPhase SFUEvent}
    {more : List (Occurrence SFUEvent)} (accounted : Accounted service (phase ::ₘ others))
    (writer : after.writer = service.writer) (log : after.log = service.log ++ more)
    (moved : ∀ signalingId, (routedTo signalingId more : Multiset SFUEvent) +
        (service.router.queue signalingId + phase.carried signalingId) =
      (writtenFor signalingId more + evictedFrom signalingId more) +
        (after.router.queue signalingId + next.carried signalingId))
    (bounded : ∀ signalingId, (after.router.queue signalingId).length ≤ maxPendingEvents)
    (subscribed : ∀ signalingId sub, after.router.subscribers.lookup signalingId = some sub →
      service.router.subscribers.lookup signalingId = some sub ∨ Subscribed after signalingId sub)
    (fit : next.Fit after)
    (delivered : ∀ signalingId stream event ok, .written signalingId stream event ok ∈ more →
      ok = true ∧ ∃ sub, service.writer.lookup sub = some stream ∧
        .registered signalingId sub ∈ service.log) :
    Accounted after (next ::ₘ others) := by
  have grown : Grown service after := by
    refine ⟨fun sub stream found => by rw [writer]; exact found, ?_⟩
    rw [log]
    exact List.subset_append_left _ _
  refine ⟨fun signalingId => ?_, bounded, fun signalingId sub found => ?_, fun held member => ?_,
    fun signalingId stream event ok member => ?_⟩
  · have old := accounted.balance signalingId
    simp only [carried_cons] at old ⊢
    rw [log, routedTo_append, writtenFor_append, evictedFrom_append]
    simp only [← Multiset.coe_add, old]
    calc _ = (writtenFor signalingId service.log : Multiset SFUEvent) +
          evictedFrom signalingId service.log + carried signalingId others +
          (routedTo signalingId more +
            (service.router.queue signalingId + phase.carried signalingId)) := by abel
      _ = _ := by rw [moved signalingId]; abel
  · rcases subscribed signalingId sub found with old | new
    · exact grown.subscribed (accounted.subscribed signalingId sub old)
    · exact new
  · rcases Multiset.mem_cons.mp member with rfl | member
    · exact fit
    · exact grown.fit (accounted.fit held (Multiset.mem_cons_of_mem member))
  · rw [log, List.mem_append] at member
    obtain ⟨success, sub, found, registered⟩ := member.elim
      (accounted.delivered signalingId stream event ok) (delivered signalingId stream event ok)
    exact ⟨success, sub, grown.writer sub stream found, grown.log registered⟩

/-- An event that finds its subscriber is carried by its call. -/
theorem found (accounted : Accounted service (.routing signalingId ::ₘ others))
    (event : SFUEvent) {sub : SubscriberId}
    (lookup : service.router.subscribers.lookup signalingId = some sub) :
    Accounted { service with log := service.log ++ [.routed signalingId event] }
      (.carrying true signalingId sub [event] ::ₘ others) := by
  have grown := Grown.append service service.router [.routed signalingId event]
  refine accounted.move rfl rfl (fun query => ?_) accounted.bounded (fun _ _ old => .inl old)
    (grown.subscribed (accounted.subscribed signalingId sub lookup)) fun _ _ _ _ member => ?_
  · by_cases same : signalingId = query
    · simp [routedEvent, writtenEvent, evictedEvent, RouterPhase.carried, same, add_comm]
    · simp [routedEvent, writtenEvent, evictedEvent, RouterPhase.carried, same]
  · simp at member

/-- An event that finds none is queued. -/
theorem queued (accounted : Accounted service (.routing signalingId ::ₘ others))
    (event : SFUEvent) (lookup : service.router.subscribers.lookup signalingId = none) :
    Accounted (service.routeEvent signalingId event).2 (.routing signalingId ::ₘ others) := by
  simp only [EventService.routeEvent, lookup]
  refine accounted.move rfl rfl (fun query => ?_) (fun query => ?_) (fun _ _ old => .inl old)
    trivial fun _ _ _ _ member => ?_
  · obtain ⟨evicted, routed, written⟩ := evictions query signalingId
      (service.router.enqueue signalingId event).1
    simp only [routedTo_cons, writtenFor_cons, evictedFrom_cons, evicted, routed, written,
      EventRouter.queue_enqueue]
    by_cases same : query = signalingId
    · subst same
      have kept : (service.router.enqueue query event).1 ++
          (trim (service.router.queue query ++ [event])).2 = service.router.queue query ++
            [event] :=
        trim_append _
      simp only [routedEvent, writtenEvent, evictedEvent, RouterPhase.carried, ↓reduceIte,
        Option.toList_some, Option.toList_none, List.nil_append, List.append_nil,
        Multiset.coe_nil, add_zero, zero_add, Multiset.coe_add, kept]
      exact Multiset.coe_eq_coe.mpr List.perm_append_comm
    · simp [routedEvent, writtenEvent, evictedEvent, RouterPhase.carried, same, Ne.symm same]
  · rw [EventRouter.queue_enqueue]
    split
    · exact trim_length _
    · exact accounted.bounded query
  · simp at member

/-- A carried event is written to the stream of its subscriber. -/
theorem written {routes : Bool} {sub : SubscriberId} {event : SFUEvent} {rest : List SFUEvent}
    (accounted : Accounted service (.carrying routes signalingId sub (event :: rest) ::ₘ others)) :
    ∃ stream, service.writer.lookup sub = some stream ∧
      Accounted { service with
        log := service.log ++ [.written signalingId stream event true] }
        (.carrying routes signalingId sub rest ::ₘ others) := by
  have subscribed : Subscribed service signalingId sub :=
    accounted.fit _ (Multiset.mem_cons_self _ _)
  obtain ⟨stream, found⟩ := Finmap.mem_iff.mp subscribed.writable
  have grown := Grown.append service service.router [.written signalingId stream event true]
  refine ⟨stream, found, accounted.move rfl rfl (fun query => ?_) accounted.bounded
    (fun _ _ old => .inl old) (grown.subscribed subscribed) fun _ _ _ _ member => ?_⟩
  · by_cases same : signalingId = query
    · simp only [same, routedTo_cons, writtenFor_cons, evictedFrom_cons, routedTo_nil,
        writtenFor_nil, evictedFrom_nil, routedEvent, writtenEvent, evictedEvent,
        RouterPhase.carried, ↓reduceIte, Option.toList_some, Option.toList_none, List.append_nil,
        Multiset.coe_nil, add_zero, zero_add, ← Multiset.cons_coe, ← Multiset.singleton_add]
      abel
    · simp [routedEvent, writtenEvent, evictedEvent, RouterPhase.carried, same]
  · simp only [List.mem_singleton, written.injEq] at member
    obtain ⟨rfl, rfl, rfl, rfl⟩ := member
    exact ⟨rfl, sub, found, subscribed.registered⟩

/-- Whoever registers takes the queue along. -/
theorem registered {sub : SubscriberId}
    (accounted : Accounted service (.registering sub ::ₘ others))
    (signalingId : SignalingId) :
    Accounted
      { service with
        router := (service.router.registerSignaling signalingId sub).2
        log := service.log ++ [.registered signalingId sub] }
      (.carrying false signalingId sub (service.router.queue signalingId) ::ₘ others) := by
  have writable : sub ∈ service.writer := accounted.fit _ (Multiset.mem_cons_self _ _)
  have now : Subscribed { service with
      router := (service.router.registerSignaling signalingId sub).2
      log := service.log ++ [.registered signalingId sub] } signalingId sub :=
    ⟨writable, List.mem_append_right _ List.mem_cons_self⟩
  refine accounted.move rfl rfl (fun query => ?_) (fun query => ?_)
    (fun query other lookup => ?_) now fun _ _ _ _ member => ?_
  · rw [EventRouter.queue_registerSignaling]
    by_cases same : query = signalingId
    · simp [routedEvent, writtenEvent, evictedEvent, RouterPhase.carried, same]
    · simp [routedEvent, writtenEvent, evictedEvent, RouterPhase.carried, same, Ne.symm same]
  · rw [EventRouter.queue_registerSignaling]
    split
    · exact Nat.zero_le _
    · exact accounted.bounded query
  · simp only [EventRouter.registerSignaling, lookup_insert_if] at lookup
    split at lookup
    · rename_i same
      cases lookup
      exact .inr (same ▸ now)
    · exact .inl lookup
  · simp at member

/-- Leaving changes no account. -/
theorem unregistered (accounted : Accounted service (.idle ::ₘ others)) (signalingId : SignalingId)
    (sub : SubscriberId) :
    Accounted { service with router := service.router.unregisterSignaling signalingId sub }
      (.idle ::ₘ others) := by
  have queue (query : SignalingId) :
      (service.router.unregisterSignaling signalingId sub).queue query =
        service.router.queue query := by
    rw [EventRouter.queue, EventRouter.queue_unregisterSignaling]
    rfl
  refine @move _ _ _ _ .idle .idle [] accounted rfl (List.append_nil _).symm (fun query => ?_)
    (fun query => ?_) (fun query other lookup => ?_) trivial fun _ _ _ _ member => ?_
  · rw [queue]
    rfl
  · rw [queue]
    exact accounted.bounded query
  · exact .inl (EventRouter.subscribers_unregisterSignaling _ _ lookup)
  · cases member

/-- A call that carries nothing is not part of the account. -/
theorem cons_iff {phase : RouterPhase SFUEvent}
    (empty : ∀ signalingId, phase.carried signalingId = [])
    (fit : phase.Fit service) :
    Accounted service (phase ::ₘ others) ↔ Accounted service others := by
  constructor
  · intro ⟨balance, bounded, subscribed, fit, delivered⟩
    refine ⟨fun signalingId => ?_, bounded, subscribed,
      fun held member => fit held (Multiset.mem_cons_of_mem member), delivered⟩
    rw [balance signalingId, carried_cons, empty, Multiset.coe_nil, zero_add]
  · intro ⟨balance, bounded, subscribed, fits, delivered⟩
    refine ⟨fun signalingId => ?_, bounded, subscribed, fun held member => ?_, delivered⟩
    · rw [balance signalingId, carried_cons, empty, Multiset.coe_nil, zero_add]
    · rcases Multiset.mem_cons.mp member with rfl | member
      · exact fit
      · exact fits held member

/-- A call that carries nothing may end. -/
theorem emptied {routes : Bool} {sub : SubscriberId}
    (accounted : Accounted service (.carrying routes signalingId sub [] ::ₘ others)) :
    Accounted service others := by
  refine (cons_iff (fun query => ?_) (accounted.fit _ (Multiset.mem_cons_self _ _))).mp accounted
  exact ite_self _

/-- A new stream has been written nothing. -/
theorem subscribe (accounted : Accounted service others) {sub : SubscriberId} (stream : Stream)
    (fresh : sub ∉ service.writer) :
    Accounted { service with writer := service.writer.insert sub stream } others := by
  have grown : Grown service { service with writer := service.writer.insert sub stream } := by
    refine ⟨fun other stream found => ?_, List.Subset.refl _⟩
    have apart : other ≠ sub := by
      rintro rfl
      exact fresh (Finmap.mem_of_lookup_eq_some found)
    rw [Finmap.lookup_insert_of_ne _ apart]
    exact found
  refine ⟨accounted.balance, accounted.bounded,
    fun signalingId sub found => grown.subscribed (accounted.subscribed signalingId sub found),
    fun held member => grown.fit (accounted.fit held member),
    fun signalingId stream event ok member => ?_⟩
  obtain ⟨success, sub, found, registered⟩ := accounted.delivered signalingId stream event ok member
  exact ⟨success, sub, grown.writer sub stream found, registered⟩

/-- Nothing has happened yet. -/
theorem empty : Accounted ({} : EventService SFUEvent) 0 where
  balance _ := rfl
  bounded _ := Nat.zero_le _
  subscribed _ _ found := by
    rw [Finmap.lookup_empty] at found
    cases found
  fit _ member := absurd member (Multiset.notMem_zero _)
  delivered _ _ _ _ member := absurd member List.not_mem_nil

/-- Every section of a call keeps the account. -/
theorem preserves {mayRoute : Multiset (RouterPhase SFUEvent) → SignalingId → Prop}
    (guard : (routerCalls mayRoute).Guard) : Preserves guard Accounted where
  found _ _ _ event _ accounted lookup := accounted.found event lookup
  queued _ _ _ event accounted lookup := accounted.queued event lookup
  written _ _ _ _ _ _ _ accounted _ := accounted.written
  registered _ _ signalingId _ accounted _ := accounted.registered signalingId
  unregistered _ _ signalingId sub accounted := accounted.unregistered signalingId sub
  starts _ _ signalingId accounted _ :=
    (@cons_iff _ _ _ (.routing signalingId) (fun _ => rfl) trivial).mpr accounted
  registers _ _ sub accounted writable :=
    (@cons_iff _ _ _ (.registering sub) (fun _ => rfl) writable).mpr accounted
  rests _ _ := cons_iff (fun _ => rfl) trivial
  routed _ _ signalingId accounted :=
    (@cons_iff _ _ _ (.routing signalingId) (fun _ => rfl) trivial).mp accounted
  emptied _ _ _ _ _ accounted := accounted.emptied
  subscribed _ _ _ stream accounted fresh _ := accounted.subscribe stream fresh

end Accounted

/-! ## The queues, by what has happened -/

namespace Occurrence

variable {log more : List (Occurrence SFUEvent)} {occurrence : Occurrence SFUEvent}

/-- What waits after a longer log. -/
theorem waitingFor_append (signalingId : SignalingId) (log more : List (Occurrence SFUEvent)) :
    waitingFor signalingId (log ++ more) =
      more.foldl (waits signalingId) (waitingFor signalingId log) :=
  List.foldl_append

/-- What waits after one more entry. -/
theorem waitingFor_concat (signalingId : SignalingId) (log : List (Occurrence SFUEvent))
    (occurrence : Occurrence SFUEvent) : waitingFor signalingId (log ++ [occurrence]) =
      waits signalingId (waitingFor signalingId log) occurrence :=
  waitingFor_append signalingId log [occurrence]

/-- The history stays good when the next occurrence, if it drops an event, drops the
oldest of a queue that holds too many. -/
theorem DropsOldest.concat (drops : DropsOldest log)
    (oldest : ∀ signalingId event, occurrence = .evicted signalingId event →
      ∃ rest, waitingFor signalingId log = event :: rest ∧
        maxPendingEvents < (event :: rest).length) : DropsOldest (log ++ [occurrence]) := by
  intro signalingId earlier event later whole
  rcases List.eq_nil_or_concat later with rfl | ⟨before, last, rfl⟩
  · obtain ⟨rfl, last⟩ := List.append_inj' whole rfl
    exact oldest signalingId event (List.singleton_inj.mp last)
  · rw [List.concat_eq_append, ← List.cons_append, ← List.append_assoc] at whole
    obtain ⟨earlier_eq, -⟩ := List.append_inj' whole rfl
    exact drops signalingId earlier event before earlier_eq

/-- The loop of `routeEvent` drops from the front, while there are too many. -/
theorem DropsOldest.trim {signalingId : SignalingId} {queue : List SFUEvent}
    (drops : DropsOldest log) (held : waitingFor signalingId log = queue) :
    DropsOldest (log ++ (trim queue).1.map (.evicted signalingId)) ∧
      waitingFor signalingId (log ++ (trim queue).1.map (.evicted signalingId)) =
        (Sfu.trim queue).2 := by
  induction queue generalizing log with
  | nil =>
      rw [Sfu.trim, List.map_nil, List.append_nil]
      exact ⟨drops, held⟩
  | cons event queue ih =>
      unfold Sfu.trim
      by_cases full : (event :: queue).length > maxPendingEvents
      · rw [if_pos full, List.map_cons, ← List.singleton_append, ← List.append_assoc]
        refine ih (drops.concat fun target dropped same => ?_) ?_
        · obtain ⟨rfl, rfl⟩ := Occurrence.evicted.inj same
          exact ⟨queue, held, full⟩
        · rw [waitingFor_concat, held, waits, if_pos rfl, List.tail_cons]
      · rw [if_neg full, List.map_nil, List.append_nil]
        exact ⟨drops, held⟩

/-- The queues of the others are not touched. -/
theorem waitingFor_evictions {signalingId query : SignalingId} (apart : signalingId ≠ query)
    (log : List (Occurrence SFUEvent)) (events : List SFUEvent) :
    waitingFor query (log ++ events.map (.evicted signalingId)) = waitingFor query log := by
  induction events generalizing log with
  | nil => rw [List.map_nil, List.append_nil]
  | cons event events ih =>
      rw [List.map_cons, ← List.singleton_append, ← List.append_assoc, ih, waitingFor_concat,
        waits, if_neg apart]

end Occurrence

/-- The queues are what the history makes of them, and only the oldest were dropped. -/
structure Recorded (service : EventService SFUEvent) : Prop where
  waiting : ∀ signalingId,
    waitingFor signalingId service.log = service.router.queue signalingId
  drops : DropsOldest service.log

namespace Recorded

variable {service : EventService SFUEvent} {occurrence : Occurrence SFUEvent}

/-- An occurrence that no queue depends on. -/
theorem apart (recorded : Recorded service) (same : ∀ signalingId queue,
      waits signalingId queue occurrence = queue)
    (kept : ∀ signalingId event, occurrence ≠ .evicted signalingId event) :
    Recorded { service with log := service.log ++ [occurrence] } := by
  refine ⟨fun signalingId => ?_, recorded.drops.concat fun signalingId event dropped => ?_⟩
  · rw [waitingFor_concat, same]
    exact recorded.waiting signalingId
  · exact absurd dropped (kept signalingId event)

/-- Whoever registers leaves an empty queue. -/
theorem registered (recorded : Recorded service) (signalingId : SignalingId)
    (sub : SubscriberId) :
    Recorded
      { service with
        router := (service.router.registerSignaling signalingId sub).2
        log := service.log ++ [.registered signalingId sub] } := by
  refine ⟨fun query => ?_, recorded.drops.concat fun _ _ => nofun⟩
  rw [waitingFor_concat, EventRouter.queue_registerSignaling, waits, recorded.waiting]
  by_cases same : signalingId = query
  · rw [if_pos same, if_pos same.symm]
  · rw [if_neg same, if_neg (Ne.symm same)]

/-- The queue gets the event, and loses its oldest if it is too long. -/
theorem queued (recorded : Recorded service) (signalingId : SignalingId) (event : SFUEvent) :
    Recorded
      { service with
        router := (service.router.enqueue signalingId event).2
        log := service.log ++ .routed signalingId event :: .queued signalingId event ::
          (service.router.enqueue signalingId event).1.map (.evicted signalingId) } := by
  -- the event is in the queue before the loop looks at it
  have arrived (query : SignalingId) :
      waitingFor query (service.log ++ [.routed signalingId event] ++ [.queued signalingId event]) =
        if signalingId = query then service.router.queue query ++ [event]
        else service.router.queue query := by
    simp only [waitingFor_concat, waits, recorded.waiting]
  have drops : DropsOldest (service.log ++ [.routed signalingId event] ++
      [.queued signalingId event]) := by
    have routed : DropsOldest (service.log ++ [.routed signalingId event]) :=
      recorded.drops.concat fun _ _ => nofun
    exact routed.concat fun _ _ => nofun
  obtain ⟨dropped, trimmed⟩ := drops.trim ((arrived signalingId).trans (if_pos rfl))
  have whole (events : List SFUEvent) : service.log ++ .routed signalingId event ::
      .queued signalingId event :: events.map (.evicted signalingId) =
        service.log ++ [.routed signalingId event] ++ [.queued signalingId event] ++
          events.map (.evicted signalingId) := by
    simp only [List.append_assoc, List.cons_append, List.nil_append]
  refine ⟨fun query => ?_, ?_⟩
  · dsimp only
    rw [whole, EventRouter.queue_enqueue]
    by_cases same : signalingId = query
    · subst same
      rw [if_pos rfl]
      exact trimmed
    · rw [waitingFor_evictions same, arrived, if_neg same, if_neg (Ne.symm same)]
  · dsimp only
    rw [whole]
    exact dropped

/-- Nothing has been recorded. -/
theorem empty : Recorded ({} : EventService SFUEvent) where
  waiting _ := rfl
  drops _ _ _ _ whole := by
    rw [eq_comm, List.append_eq_nil_iff] at whole
    cases whole.2

/-- Every section of a call keeps the account and the record. -/
theorem preserves {mayRoute : Multiset (RouterPhase SFUEvent) → SignalingId → Prop}
    (guard : (routerCalls mayRoute).Guard) :
    Preserves guard fun service phases => Accounted service phases ∧ Recorded service where
  found _ _ _ event _ holds lookup :=
    ⟨holds.1.found event lookup, holds.2.apart (fun _ _ => rfl) (by simp)⟩
  queued service _ signalingId event holds lookup := by
    refine ⟨holds.1.queued event lookup, ?_⟩
    simp only [EventService.routeEvent, lookup]
    exact holds.2.queued signalingId event
  written _ _ _ _ _ _ _ holds _ := by
    obtain ⟨stream, found, accounted⟩ := holds.1.written
    exact ⟨stream, found, accounted, holds.2.apart (fun _ _ => rfl) (by simp)⟩
  registered _ _ signalingId sub holds _ :=
    ⟨holds.1.registered signalingId, holds.2.registered signalingId sub⟩
  unregistered _ _ signalingId sub holds := by
    refine ⟨holds.1.unregistered signalingId sub, fun query => ?_, holds.2.drops⟩
    rw [EventRouter.queue, EventRouter.queue_unregisterSignaling]
    exact holds.2.waiting query
  starts _ _ signalingId holds allowed :=
    ⟨(Accounted.preserves guard).starts _ _ signalingId holds.1 allowed, holds.2⟩
  registers _ _ sub holds writable :=
    ⟨(Accounted.preserves guard).registers _ _ sub holds.1 writable, holds.2⟩
  rests _ _ := and_congr_left' ((Accounted.preserves guard).rests _ _)
  routed _ _ signalingId holds :=
    ⟨(Accounted.preserves guard).routed _ _ signalingId holds.1, holds.2⟩
  emptied _ _ _ _ _ holds := ⟨holds.1.emptied, holds.2⟩
  subscribed _ _ _ stream holds fresh _ :=
    ⟨holds.1.subscribe stream fresh, holds.2.waiting, holds.2.drops⟩

end Recorded

/-- What a pool of calls has of the router. -/
def serviceOf {mayRoute : Multiset (RouterPhase SFUEvent) → SignalingId → Prop}
    (pool : (routerCalls mayRoute).Pool) : EventService SFUEvent := pool.state

/-- Events may be routed at any time. -/
def anyTime : Multiset (RouterPhase SFUEvent) → SignalingId → Prop := fun _ _ => True

/-- **No event is lost or duplicated.** No queue holds more than it may, and what was
dropped was the oldest event of a queue that held more. When every call has returned, the
events routed to a signaling node are those written, each to one stream that was
registered for the node, those that still wait, and those dropped. -/
theorem accounted_of_reaches {pool : (routerCalls (@anyTime SFUEvent)).Pool}
    (run : Reaches unguarded (Preserves.opened anyTime) pool) :
    (∀ signalingId queue, (serviceOf pool).router.pending.lookup signalingId = some queue →
      queue.length ≤ maxPendingEvents) ∧
    (∀ signalingId, waitingFor signalingId (serviceOf pool).log =
      (serviceOf pool).router.queue signalingId) ∧
    DropsOldest (serviceOf pool).log ∧
    (pool.Quiescent → ∀ signalingId,
      (routedTo signalingId (serviceOf pool).log : Multiset SFUEvent) =
        writtenFor signalingId (serviceOf pool).log +
          (serviceOf pool).router.queue signalingId +
          evictedFrom signalingId (serviceOf pool).log ∧
      ∀ stream event ok, .written signalingId stream event ok ∈ (serviceOf pool).log →
        ok = true ∧ ∃ sub, (serviceOf pool).writer.lookup sub = some stream ∧
          .registered signalingId sub ∈ (serviceOf pool).log) := by
  obtain ⟨accounted, recorded⟩ : Accounted (serviceOf pool) (phases pool.threads) ∧
      Recorded (serviceOf pool) :=
    (Recorded.preserves unguarded).reaches ⟨Accounted.empty, Recorded.empty⟩ run
  refine ⟨fun signalingId queue found => ?_, recorded.waiting, recorded.drops,
    fun quiescent signalingId => ⟨?_, ?_⟩⟩
  · have bounded := accounted.bounded signalingId
    rw [EventRouter.queue, found] at bounded
    exact bounded
  · rw [show pool.threads = [] from quiescent] at accounted
    have last : Accounted (serviceOf pool) 0 := accounted
    have nothing : carried signalingId (0 : Multiset (RouterPhase SFUEvent)) = 0 := rfl
    rw [last.balance signalingId, nothing, add_zero]
    exact add_right_comm _ _ _
  · exact fun stream event ok member => accounted.delivered signalingId stream event ok member

/-- One event more than the queue of a node may hold, while another node registers and is
sent an event of its own. -/
def overflowing : List (routerCalls (@anyTime ℕ)).Thread :=
  (List.range (maxPendingEvents + 1)).map (fun event =>
    ⟨RouterPhase.routing "node-1", Functor.mapConst () (RouterCall.routeEvent "node-1" event)⟩) ++
  [⟨RouterPhase.registering 0, RouterCall.registerSignaling "node-2" 0⟩,
    ⟨RouterPhase.routing "node-2", Functor.mapConst () (RouterCall.routeEvent "node-2" 7)⟩]

/-- More events come than a queue may hold. -/
theorem reaches_overflowing :
    Reaches unguarded (Preserves.opened (@anyTime ℕ)) ⟨withWriter, overflowing⟩ := by
  refine reaches_withWriter.trans (reaches_start fun thread member others => ⟨rfl, ?_⟩)
  rcases List.mem_append.mp member with queued | late
  · obtain ⟨event, -, rfl⟩ := List.mem_map.mp queued
    exact .inl ⟨"node-1", event, trivial, rfl, rfl⟩
  · simp only [List.mem_cons, List.not_mem_nil, or_false] at late
    rcases late with rfl | rfl
    · exact .inr (.inl ⟨"node-2", 0, by decide, rfl, rfl⟩)
    · exact .inl ⟨"node-2", 7, trivial, rfl, rfl⟩

/-- The oldest event is dropped, the others wait, and the event of the other node is
written. -/
theorem accounted_of_reaches_both : ∃ pool, Reaches unguarded (Preserves.opened (@anyTime ℕ)) pool ∧
    pool.Quiescent ∧ evictedFrom "node-1" (serviceOf pool).log = [0] ∧
      writtenFor "node-2" (serviceOf pool).log = [7] ∧
      DropsOldest (serviceOf pool).log ∧
      (routedTo "node-1" (serviceOf pool).log : Multiset ℕ) =
        writtenFor "node-1" (serviceOf pool).log + (serviceOf pool).router.queue "node-1" +
          evictedFrom "node-1" (serviceOf pool).log := by
  have replayed : ((routerSampler (@anyTime ℕ)).replay unguarded (List.replicate 263 (0, ()))
      ⟨withWriter, overflowing⟩).any (fun pool => pool.threads.isEmpty ∧
        evictedFrom "node-1" (serviceOf pool).log = [0] ∧
        writtenFor "node-2" (serviceOf pool).log = [7]) = true := by
    decide +kernel
  obtain ⟨pool, run, passed⟩ := Sampler.exists_of_replay replayed
  obtain ⟨quiescent, evicted, written⟩ := of_decide_eq_true passed
  have quiescent := List.isEmpty_iff.mp quiescent
  have run := reaches_overflowing.trans run
  obtain ⟨-, -, drops, accounted⟩ := accounted_of_reaches run
  exact ⟨pool, run, quiescent, evicted, written, drops, (accounted quiescent "node-1").1⟩

end Callifornia.Sfu
