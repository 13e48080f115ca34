import Callifornia.Sfu.Accounting

/-! # Events arrive in order

A subscriber is found by `routeEvent` as soon as it is registered, while its backlog is
still being written. What is written to its stream is in order as long as nothing newer
is written to it before the backlog is.
-/

namespace Callifornia.Sfu

open FiniteMap Concurrency Concurrency.System Occurrence

variable {SFUEvent : Type}

/-- The events of a signaling node that were written to a stream, in this order. -/
def Occurrence.writtenTo (signalingId : SignalingId) (stream : Stream)
    (log : List (Occurrence SFUEvent)) : List SFUEvent :=
  writtenFor signalingId (log.filter (On stream))

/-- One event is routed to a signaling node at a time. -/
def oneAtATime : Multiset (RouterPhase SFUEvent) → SignalingId → Prop :=
  fun others signalingId => ∀ other ∈ others, ¬ other.Routes signalingId

/-- No call has a backlog of the node left to write to a subscriber when a newer event
is written to it, or a newer backlog is taken over for it. -/
def Flushed : (routerCalls (@oneAtATime SFUEvent)).Guard :=
  fun (service : EventService SFUEvent) (phase : RouterPhase SFUEvent) step
      (others : Multiset (RouterPhase SFUEvent)) =>
    match step with
    | .write signalingId sub _ => phase.Routes signalingId →
        ∀ other ∈ others, ¬ RouterPhase.Flushes signalingId sub other
    | .registerSignaling signalingId sub => service.router.queue signalingId ≠ [] →
        ∀ other ∈ others, ¬ RouterPhase.Flushes signalingId sub other
    | _ => True

/-- What a call carries for a subscriber, if it is one of these calls. -/
def Carries (routes : Bool) (signalingId : SignalingId) (sub : SubscriberId)
    (phases : Multiset (RouterPhase SFUEvent)) (events : List SFUEvent) : Prop :=
  events = [] ∨ .carrying routes signalingId sub events ∈ phases

/-- Written, flushed, routed and queued events follow each other as they were routed. -/
structure Ordered (service : EventService SFUEvent)
    (phases : Multiset (RouterPhase SFUEvent)) : Prop where
  ordered : ∀ signalingId sub stream, service.writer.lookup sub = some stream →
    ∀ backlog, Carries false signalingId sub phases backlog →
    ∀ late, Carries true signalingId sub phases late →
    List.Sublist (writtenTo signalingId stream service.log ++
      (backlog ++ (late ++ service.router.queue signalingId))) (routedTo signalingId service.log)
  queued : ∀ signalingId,
    List.Sublist (service.router.queue signalingId) (routedTo signalingId service.log)
  alone : ∀ signalingId sub, phases.countP (RouterPhase.Flushes signalingId sub) ≤ 1
  serial : ∀ signalingId, phases.countP (RouterPhase.Routes signalingId) ≤ 1
  late : ∀ signalingId sub event events,
    .carrying true signalingId sub (event :: events) ∈ phases →
    service.router.queue signalingId = []
  live : ∀ signalingId sub, service.router.subscribers.lookup signalingId = some sub →
    service.router.queue signalingId = []
  own : ∀ sub other stream, service.writer.lookup sub = some stream →
    service.writer.lookup other = some stream → sub = other
  silent : ∀ signalingId stream, (∀ sub, service.writer.lookup sub ≠ some stream) →
    writtenTo signalingId stream service.log = []

namespace Ordered

variable {service : EventService SFUEvent} {others : Multiset (RouterPhase SFUEvent)}
  {signalingId : SignalingId} {sub : SubscriberId}

/-- If one call routes to a node, no other does. -/
theorem not_routes {phase : RouterPhase SFUEvent} (ordered : Ordered service (phase ::ₘ others))
    (routes : phase.Routes signalingId) {other : RouterPhase SFUEvent} (member : other ∈ others) :
    ¬ other.Routes signalingId := by
  have serial := ordered.serial signalingId
  rw [Multiset.countP_cons, if_pos routes] at serial
  exact Multiset.countP_eq_zero.mp (by omega) other member

/-- If one call flushes to a subscriber, no other does. -/
theorem not_flushes {phase : RouterPhase SFUEvent} (ordered : Ordered service (phase ::ₘ others))
    (flushes : phase.Flushes signalingId sub) {other : RouterPhase SFUEvent}
    (member : other ∈ others) : ¬ other.Flushes signalingId sub := by
  have alone := ordered.alone signalingId sub
  rw [Multiset.countP_cons, if_pos flushes] at alone
  exact Multiset.countP_eq_zero.mp (by omega) other member

/-- A call that carries nothing for a subscriber, as far as the order is concerned. -/
theorem carries_cons {routes : Bool} {phases : Multiset (RouterPhase SFUEvent)}
    {phase : RouterPhase SFUEvent} {events : List SFUEvent}
    (carries : Carries routes signalingId sub (phase ::ₘ phases) events)
    (other : phase ≠ .carrying routes signalingId sub events) :
    Carries routes signalingId sub phases events := by
  rcases carries with empty | member
  · exact .inl empty
  · rcases Multiset.mem_cons.mp member with same | member
    · exact absurd same.symm other
    · exact .inr member

theorem carries_weaken {routes : Bool} {phases : Multiset (RouterPhase SFUEvent)}
    (phase : RouterPhase SFUEvent) {events : List SFUEvent}
    (carries : Carries routes signalingId sub phases events) :
    Carries routes signalingId sub (phase ::ₘ phases) events :=
  carries.imp_right Multiset.mem_cons_of_mem

/-- Without a call that routes to the node, none carries an event for it. -/
theorem late_eq_nil {events : List SFUEvent}
    (none : ∀ other ∈ others, ¬ RouterPhase.Routes signalingId other)
    (carries : Carries true signalingId sub others events) : events = [] :=
  carries.elim id fun member => absurd rfl (none _ member)

/-- Without a call that flushes to the subscriber, none carries a backlog for it. -/
theorem backlog_eq_nil {events : List SFUEvent}
    (none : ∀ other ∈ others, ¬ RouterPhase.Flushes signalingId sub other)
    (carries : Carries false signalingId sub others events) : events = [] := by
  rcases carries with empty | member
  · exact empty
  · cases events with
    | nil => rfl
    | cons event events => exact absurd ⟨rfl, rfl⟩ (none _ member)

@[simp] theorem writtenTo_append (signalingId : SignalingId) (stream : Stream)
    (log more : List (Occurrence SFUEvent)) : writtenTo signalingId stream (log ++ more) =
      writtenTo signalingId stream log ++ writtenTo signalingId stream more := by
  rw [writtenTo, List.filter_append, writtenFor_append]
  rfl

theorem found (ordered : Ordered service (.routing signalingId ::ₘ others)) (event : SFUEvent)
    (lookup : service.router.subscribers.lookup signalingId = some sub) :
    Ordered { service with log := service.log ++ [.routed signalingId event] }
      (.carrying true signalingId sub [event] ::ₘ others) := by
  have alone := fun other member => @ordered.not_routes _ _ _ signalingId _ rfl other member
  have still (query : SignalingId) (stream : Stream) :
      writtenTo query stream (service.log ++ [.routed signalingId event]) =
        writtenTo query stream service.log := by
    rw [writtenTo_append]
    exact List.append_nil _
  have routed (query : SignalingId) :
      routedTo query (service.log ++ [.routed signalingId event]) =
        routedTo query service.log ++ if signalingId = query then [event] else [] := by
    rw [routedTo_append, routedTo_cons, routedTo_nil, List.append_nil, routedEvent]
    split <;> rfl
  refine ⟨?_, fun query => ?_, ?_, ?_, ?_, ordered.live, ordered.own, fun query stream none => ?_⟩
  · intro query other stream held backlog carried late lateCarried
    have carried := carries_cons carried (by simp)
    rw [still, routed]
    by_cases here : signalingId = query
    · subst here
      rw [if_pos rfl, ordered.live signalingId sub lookup, List.append_nil]
      have before := ordered.ordered signalingId other stream held backlog
        (carries_weaken _ carried) [] (.inl rfl)
      rw [ordered.live signalingId sub lookup, List.append_nil, List.append_nil] at before
      have single : late = [] ∨ late = [event] := by
        rcases lateCarried with empty | member
        · exact .inl empty
        · rcases Multiset.mem_cons.mp member with same | member
          · exact .inr (by cases same; rfl)
          · exact absurd rfl (alone _ member)
      rw [← List.append_assoc]
      apply before.append
      rcases single with rfl | rfl
      · exact List.nil_sublist _
      · exact List.Sublist.refl _
    · rw [if_neg here, List.append_nil]
      refine ordered.ordered query other stream held backlog (carries_weaken _ carried) late ?_
      exact carries_weaken _ (carries_cons lateCarried fun same => here (by cases same; rfl))
  · rw [routed]
    exact (ordered.queued query).trans (List.sublist_append_left _ _)
  · intro query other
    have old := ordered.alone query other
    rw [Multiset.countP_cons] at old ⊢
    exact old
  · intro query
    have old := ordered.serial query
    rw [Multiset.countP_cons] at old ⊢
    exact old
  · intro query other first rest member
    rcases Multiset.mem_cons.mp member with same | member
    · cases same
      exact ordered.live signalingId sub lookup
    · exact ordered.late query other first rest (Multiset.mem_cons_of_mem member)
  · rw [still]
    exact ordered.silent query stream none

/-- Evictions are not writes. -/
theorem writtenTo_evictions (query target : SignalingId) (stream : Stream)
    (events : List SFUEvent) :
    writtenTo query stream (events.map (.evicted target)) = [] := by
  induction events with
  | nil => rfl
  | cons event events ih => exact ih

theorem queued_event (ordered : Ordered service (.routing signalingId ::ₘ others))
    (event : SFUEvent) (lookup : service.router.subscribers.lookup signalingId = none) :
    Ordered (service.routeEvent signalingId event).2 (.routing signalingId ::ₘ others) := by
  have alone := fun other member => @ordered.not_routes _ _ _ signalingId _ rfl other member
  simp only [EventService.routeEvent, lookup]
  generalize dropped : (service.router.enqueue signalingId event).1 = evicted
  have still (query : SignalingId) (stream : Stream) :
      writtenTo query stream (service.log ++ .routed signalingId event ::
        .queued signalingId event :: evicted.map (.evicted signalingId)) =
        writtenTo query stream service.log := by
    rw [writtenTo_append]
    have nothing : writtenTo query stream (.routed signalingId event ::
        .queued signalingId event :: evicted.map (.evicted signalingId)) = [] :=
      writtenTo_evictions query signalingId stream evicted
    rw [nothing, List.append_nil]
  have routed (query : SignalingId) :
      routedTo query (service.log ++ .routed signalingId event :: .queued signalingId event ::
        evicted.map (.evicted signalingId)) =
        routedTo query service.log ++ if signalingId = query then [event] else [] := by
    rw [routedTo_append, routedTo_cons, routedTo_cons, (evictions query signalingId evicted).2.1,
      List.append_nil, routedEvent]
    split <;> rfl
  have queue (query : SignalingId) : (service.router.enqueue signalingId event).2.queue query =
      if query = signalingId then (trim (service.router.queue signalingId ++ [event])).2
      else service.router.queue query := EventRouter.queue_enqueue _ _ _ _
  have kept := trim_sublist (service.router.queue signalingId ++ [event])
  refine ⟨?_, fun query => ?_, ordered.alone, ordered.serial, ?_, ?_, ordered.own,
    fun query stream none => ?_⟩
  · intro query other stream held backlog carried late lateCarried
    have carried := carries_cons carried (by simp)
    have lateCarried := carries_cons lateCarried (by simp)
    rw [still, routed, queue]
    by_cases here : signalingId = query
    · subst here
      rw [if_pos rfl, if_pos rfl, late_eq_nil alone lateCarried, List.nil_append]
      have before := ordered.ordered signalingId other stream held backlog
        (carries_weaken _ carried) [] (.inl rfl)
      rw [List.nil_append] at before
      refine List.Sublist.trans ?_ (before.append (List.Sublist.refl [event]))
      simp only [List.append_assoc]
      exact (List.Sublist.refl _).append ((List.Sublist.refl _).append kept)
    · rw [if_neg here, if_neg (Ne.symm here), List.append_nil]
      exact ordered.ordered query other stream held backlog (carries_weaken _ carried) late
        (carries_weaken _ lateCarried)
  · rw [routed, queue]
    by_cases here : signalingId = query
    · subst here
      rw [if_pos rfl, if_pos rfl]
      exact kept.trans ((ordered.queued signalingId).append (List.Sublist.refl _))
    · rw [if_neg here, if_neg (Ne.symm here), List.append_nil]
      exact ordered.queued query
  · intro query other first rest member
    rw [queue]
    rcases Multiset.mem_cons.mp member with same | inside
    · cases same
    · by_cases here : query = signalingId
      · subst here
        exact absurd rfl (alone _ inside)
      · rw [if_neg here]
        exact ordered.late query other first rest member
  · intro query other found
    rw [queue]
    by_cases here : query = signalingId
    · subst here
      cases lookup.symm.trans found
    · rw [if_neg here]
      exact ordered.live query other found
  · rw [still]
    exact ordered.silent query stream none

/-- What a write adds to the streams. -/
theorem writtenTo_written (query : SignalingId) (stream target : Stream) (event : SFUEvent)
    (log : List (Occurrence SFUEvent)) :
    writtenTo query target (log ++ [.written signalingId stream event true]) =
      writtenTo query target log ++
        if signalingId = query ∧ stream = target then [event] else [] := by
  rw [writtenTo_append]
  congr 1
  unfold writtenTo
  by_cases same : stream = target
  · by_cases here : signalingId = query <;> simp [On, same, writtenEvent, here]
  · simp [On, same]

/-- What one of the calls carries, if no other call carries anything of the kind. -/
theorem carries_own {routes : Bool} {events rest : List SFUEvent}
    (carries : Carries routes signalingId sub (.carrying routes signalingId sub rest ::ₘ others)
      events)
    (alone : ∀ events, Carries routes signalingId sub others events → events = []) :
    List.Sublist events rest := by
  rcases carries with empty | member
  · rw [empty]
    exact List.nil_sublist _
  · rcases Multiset.mem_cons.mp member with same | member
    · cases same
      exact List.Sublist.refl _
    · rw [alone events (.inr member)]
      exact List.nil_sublist _

/-- The first event is written, and the rest follows it. -/
theorem sublist_written {log rest left queue routed : List SFUEvent} {event : SFUEvent}
    (prior : List.Sublist (log ++ ((event :: rest) ++ queue)) routed)
    (kept : List.Sublist left rest) :
    List.Sublist (log ++ [event] ++ (left ++ queue)) routed := by
  rw [List.append_assoc, List.singleton_append]
  refine List.Sublist.trans ?_ prior
  exact (List.Sublist.refl _).append ((kept.append (List.Sublist.refl _)).cons_cons event)

theorem written {routes : Bool} {event : SFUEvent} {rest : List SFUEvent} {stream : Stream}
    (ordered : Ordered service (.carrying routes signalingId sub (event :: rest) ::ₘ others))
    (held : service.writer.lookup sub = some stream)
    (flushed : routes = true →
      ∀ other ∈ others, ¬ RouterPhase.Flushes signalingId sub other) :
    Ordered { service with log := service.log ++ [.written signalingId stream event true] }
      (.carrying routes signalingId sub rest ::ₘ others) := by
  have routed (query : SignalingId) :
      routedTo query (service.log ++ [.written signalingId stream event true]) =
        routedTo query service.log := by
    rw [routedTo_append]
    exact List.append_nil _
  refine ⟨?_, fun query => ?_, ?_, ?_, ?_, ordered.live, ordered.own, fun query target none => ?_⟩
  · intro query other target found backlog carried late lateCarried
    rw [writtenTo_written, routed]
    by_cases here : signalingId = query ∧ stream = target
    · obtain ⟨rfl, rfl⟩ := here
      cases ordered.own other sub stream found held
      rw [if_pos ⟨rfl, rfl⟩]
      cases routes with
      | false =>
          have lateCarried := carries_cons lateCarried (by simp)
          -- the backlog is written in its own order
          have prior : List.Sublist (writtenTo signalingId stream service.log ++
              ((event :: rest) ++ (late ++ service.router.queue signalingId)))
              (routedTo signalingId service.log) :=
            ordered.ordered signalingId sub stream found _
              (.inr (Multiset.mem_cons_self _ _)) late (carries_weaken _ lateCarried)
          have left : List.Sublist backlog rest := by
            refine carries_own carried fun events => backlog_eq_nil fun other member => ?_
            exact @ordered.not_flushes _ _ _ signalingId sub _ ⟨rfl, rfl⟩ other member
          exact sublist_written prior left
      | true =>
          -- a newer event is written once the backlog is
          have carried := backlog_eq_nil (flushed rfl) (carries_cons carried (by simp))
          have prior : List.Sublist (writtenTo signalingId stream service.log ++
              ([] ++ ((event :: rest) ++ service.router.queue signalingId)))
              (routedTo signalingId service.log) :=
            ordered.ordered signalingId sub stream found [] (.inl rfl) _
              (.inr (Multiset.mem_cons_self _ _))
          have left : List.Sublist late rest := by
            refine carries_own lateCarried fun events => late_eq_nil fun other member => ?_
            exact @ordered.not_routes _ _ _ signalingId _ rfl other member
          rw [carried]
          rw [List.nil_append] at prior ⊢
          exact sublist_written prior left
    · rw [if_neg here, List.append_nil]
      have apart {kind : Bool} {events : List SFUEvent}
          (carries : Carries kind query other
            (.carrying routes signalingId sub rest ::ₘ others) events) :
          Carries kind query other
            (.carrying routes signalingId sub (event :: rest) ::ₘ others) events := by
        rcases carries with empty | member
        · exact .inl empty
        · rcases Multiset.mem_cons.mp member with same | member
          · cases same
            cases held.symm.trans found
            exact absurd ⟨rfl, rfl⟩ here
          · exact .inr (Multiset.mem_cons_of_mem member)
      exact ordered.ordered query other target found backlog (apart carried) late
        (apart lateCarried)
  · rw [routed]
    exact ordered.queued query
  · intro query other
    have old := ordered.alone query other
    rw [Multiset.countP_cons] at old ⊢
    have fewer : (if RouterPhase.Flushes query other (.carrying routes signalingId sub rest)
        then 1 else 0) ≤ if RouterPhase.Flushes query other
          (.carrying routes signalingId sub (event :: rest)) then 1 else 0 := by
      cases routes with
      | true => exact Nat.le_refl _
      | false =>
          cases rest with
          | nil => exact Nat.zero_le _
          | cons next rest => exact Nat.le_refl _
    omega
  · intro query
    have old := ordered.serial query
    rw [Multiset.countP_cons] at old ⊢
    cases routes with
    | true => exact old
    | false => exact old
  · intro query other first later member
    rcases Multiset.mem_cons.mp member with same | member
    · cases same
      exact ordered.late signalingId sub event _ (Multiset.mem_cons_self _ _)
    · exact ordered.late query other first later (Multiset.mem_cons_of_mem member)
  · have unheld : ¬ (signalingId = query ∧ stream = target) := fun same =>
      none sub (same.2 ▸ held)
    rw [writtenTo_written, if_neg unheld, List.append_nil]
    exact ordered.silent query target none

/-- The events that are on their way follow each other without the queued ones. -/
theorem unqueued {phases : Multiset (RouterPhase SFUEvent)}
    (ordered : Ordered service phases) {stream : Stream} {backlog late : List SFUEvent}
    (held : service.writer.lookup sub = some stream)
    (carried : Carries false signalingId sub phases backlog)
    (newer : Carries true signalingId sub phases late) :
    List.Sublist (writtenTo signalingId stream service.log ++ (backlog ++ late))
      (routedTo signalingId service.log) := by
  refine List.Sublist.trans ?_
    (ordered.ordered signalingId sub stream held backlog carried late newer)
  exact (List.Sublist.refl _).append ((List.Sublist.refl _).append (List.sublist_append_left _ _))

theorem registered (ordered : Ordered service (.registering sub ::ₘ others))
    (signalingId : SignalingId)
    (flushed : service.router.queue signalingId ≠ [] →
      ∀ other ∈ others, ¬ RouterPhase.Flushes signalingId sub other) :
    Ordered
      { service with
        router := (service.router.registerSignaling signalingId sub).2
        log := service.log ++ [.registered signalingId sub] }
      (.carrying false signalingId sub (service.router.queue signalingId) ::ₘ others) := by
  have still (query : SignalingId) (stream : Stream) :
      writtenTo query stream (service.log ++ [.registered signalingId sub]) =
        writtenTo query stream service.log := by
    rw [writtenTo_append]
    exact List.append_nil _
  have routed (query : SignalingId) :
      routedTo query (service.log ++ [.registered signalingId sub]) =
        routedTo query service.log := by
    rw [routedTo_append]
    exact List.append_nil _
  have queue := EventRouter.queue_registerSignaling service.router signalingId sub
  refine ⟨?_, fun query => ?_, ?_, ?_, ?_, ?_, ordered.own, fun query stream none => ?_⟩
  · intro query other stream held backlog carried late lateCarried
    have newer : Carries true query other (.registering sub ::ₘ others) late :=
      carries_weaken _ (carries_cons lateCarried (by simp))
    rw [still, routed, queue]
    by_cases here : query = signalingId
    · subst here
      rw [if_pos rfl, List.append_nil]
      rcases carried with empty | member
      · rw [empty]
        exact ordered.unqueued held (.inl rfl) newer
      · rcases Multiset.mem_cons.mp member with same | member
        · cases same
          -- whoever carries a newer event has found an empty queue
          cases waiting : service.router.queue query with
          | nil =>
              have prior := ordered.ordered query sub stream held [] (.inl rfl) late newer
              rwa [waiting, List.append_nil] at prior
          | cons event events =>
              have none : late = [] := by
                rcases newer with empty | member
                · exact empty
                · cases late with
                  | nil => rfl
                  | cons first rest =>
                      have free := ordered.late query sub first rest member
                      cases waiting.symm.trans free
              have prior := ordered.ordered query sub stream held [] (.inl rfl) [] (.inl rfl)
              rw [none, List.append_nil, ← waiting]
              exact prior
        · exact ordered.unqueued held (.inr (Multiset.mem_cons_of_mem member)) newer
    · rw [if_neg here]
      refine ordered.ordered query other stream held backlog ?_ late newer
      exact carries_weaken _ (carries_cons carried fun same => here (by cases same; rfl))
  · rw [routed, queue]
    split
    · exact List.nil_sublist _
    · exact ordered.queued query
  · intro query other
    have old := ordered.alone query other
    rw [Multiset.countP_cons] at old ⊢
    by_cases flushes : RouterPhase.Flushes query other
        (.carrying false signalingId sub (service.router.queue signalingId))
    · cases waiting : service.router.queue signalingId with
      | nil =>
          rw [waiting] at flushes
          cases flushes
      | cons event events =>
          rw [waiting] at flushes
          obtain ⟨rfl, rfl⟩ := flushes
          have none := Multiset.countP_eq_zero.mpr
            (flushed (by rw [waiting]; exact List.cons_ne_nil event events))
          rw [none]
          split <;> omega
    · rw [if_neg flushes]
      omega
  · intro query
    have old := ordered.serial query
    rw [Multiset.countP_cons] at old ⊢
    exact old
  · intro query other first rest member
    rw [queue]
    split
    · rfl
    · rcases Multiset.mem_cons.mp member with same | member
      · cases same
      · exact ordered.late query other first rest (Multiset.mem_cons_of_mem member)
  · intro query other found
    rw [queue]
    split
    · rfl
    · rename_i apart
      simp only [EventRouter.registerSignaling, lookup_insert_if, apart, ↓reduceIte] at found
      exact ordered.live query other found
  · rw [still]
    exact ordered.silent query stream none

theorem unregistered (ordered : Ordered service (.idle ::ₘ others)) (signalingId : SignalingId)
    (sub : SubscriberId) :
    Ordered { service with router := service.router.unregisterSignaling signalingId sub }
      (.idle ::ₘ others) := by
  have queue (query : SignalingId) :
      (service.router.unregisterSignaling signalingId sub).queue query =
        service.router.queue query := by
    rw [EventRouter.queue, EventRouter.queue_unregisterSignaling]
    rfl
  refine ⟨?_, fun query => ?_, ordered.alone, ordered.serial, ?_, ?_, ordered.own,
    ordered.silent⟩
  · intro query other stream held backlog carried late lateCarried
    rw [queue]
    exact ordered.ordered query other stream held backlog carried late lateCarried
  · rw [queue]
    exact ordered.queued query
  · intro query other first rest member
    rw [queue]
    exact ordered.late query other first rest member
  · intro query other found
    rw [queue]
    exact ordered.live query other (EventRouter.subscribers_unregisterSignaling _ _ found)

/-- A call that carries nothing does not matter to the order. -/
theorem cons {phase : RouterPhase SFUEvent} (ordered : Ordered service others)
    (empty : ∀ routes signalingId sub event events,
      phase ≠ .carrying routes signalingId sub (event :: events))
    (alone : ∀ signalingId, phase.Routes signalingId →
      ∀ other ∈ others, ¬ RouterPhase.Routes signalingId other) :
    Ordered service (phase ::ₘ others) := by
  have fewer {routes : Bool} {signalingId : SignalingId} {sub : SubscriberId}
      {events : List SFUEvent}
      (carries : Carries routes signalingId sub (phase ::ₘ others) events) :
      Carries routes signalingId sub others events := by
    cases events with
    | nil => exact .inl rfl
    | cons event events => exact carries_cons carries (empty _ _ _ _ _)
  refine ⟨?_, ordered.queued, fun signalingId sub => ?_, fun signalingId => ?_, ?_, ordered.live,
    ordered.own, ordered.silent⟩
  · intro signalingId sub stream held backlog carried late lateCarried
    exact ordered.ordered signalingId sub stream held backlog (fewer carried) late
      (fewer lateCarried)
  · have idle : ¬ phase.Flushes signalingId sub := by
      intro flushes
      cases phase with
      | carrying routes target held events =>
          cases routes with
          | true => cases flushes
          | false =>
              cases events with
              | nil => cases flushes
              | cons event events => exact empty _ _ _ _ _ rfl
      | _ => cases flushes
    rw [Multiset.countP_cons, if_neg idle]
    exact ordered.alone signalingId sub
  · rw [Multiset.countP_cons]
    by_cases routes : phase.Routes signalingId
    · rw [if_pos routes, Multiset.countP_eq_zero.mpr (alone signalingId routes)]
    · rw [if_neg routes]
      exact ordered.serial signalingId
  · intro signalingId sub event events member
    rcases Multiset.mem_cons.mp member with same | member
    · exact absurd same.symm (empty _ _ _ _ _)
    · exact ordered.late signalingId sub event events member

theorem tail {phase : RouterPhase SFUEvent} (ordered : Ordered service (phase ::ₘ others)) :
    Ordered service others := by
  refine ⟨?_, ordered.queued, fun signalingId sub => ?_, fun signalingId => ?_, ?_, ordered.live,
    ordered.own, ordered.silent⟩
  · intro signalingId sub stream held backlog carried late lateCarried
    exact ordered.ordered signalingId sub stream held backlog (carries_weaken _ carried) late
      (carries_weaken _ lateCarried)
  · exact (Multiset.countP_le_of_le _ (Multiset.le_cons_self _ _)).trans
      (ordered.alone signalingId sub)
  · exact (Multiset.countP_le_of_le _ (Multiset.le_cons_self _ _)).trans
      (ordered.serial signalingId)
  · exact fun signalingId sub event events member =>
      ordered.late signalingId sub event events (Multiset.mem_cons_of_mem member)

/-- A new subscriber has nothing written, and no call carries anything for it. -/
theorem subscribe (ordered : Ordered service others) (accounted : Accounted service others)
    {stream : Stream} (fresh : sub ∉ service.writer)
    (unused : ∀ other, service.writer.lookup other ≠ some stream) :
    Ordered { service with writer := service.writer.insert sub stream } others := by
  have none {routes : Bool} {signalingId : SignalingId} {events : List SFUEvent}
      (carries : Carries routes signalingId sub others events) : events = [] := by
    rcases carries with empty | member
    · exact empty
    · exact absurd (accounted.fit _ member).writable fresh
  refine ⟨?_, ordered.queued, ordered.alone, ordered.serial, ordered.late, ordered.live, ?_, ?_⟩
  · intro signalingId other target held backlog carried late lateCarried
    simp only [lookup_insert_if] at held
    split at held
    · rename_i same
      subst same
      cases held
      rw [none carried, none lateCarried, ordered.silent signalingId stream unused]
      exact ordered.queued signalingId
    · exact ordered.ordered signalingId other target held backlog carried late lateCarried
  · intro first second target left right
    simp only [lookup_insert_if] at left right
    split at left <;> split at right
    · simp_all
    · cases left
      exact absurd right (unused second)
    · cases right
      exact absurd left (unused first)
    · exact ordered.own first second target left right
  · intro signalingId target unheld
    apply ordered.silent
    intro other found
    refine unheld other ?_
    have apart : other ≠ sub := by
      rintro rfl
      exact fresh (Finmap.mem_of_lookup_eq_some found)
    simp only [lookup_insert_if, apart, ↓reduceIte]
    exact found

theorem empty : Ordered ({} : EventService SFUEvent) 0 where
  ordered _ _ _ held := by
    rw [Finmap.lookup_empty] at held
    cases held
  queued _ := List.Sublist.refl _
  alone _ _ := Nat.zero_le _
  serial _ := Nat.zero_le _
  late _ _ _ _ member := absurd member (Multiset.notMem_zero _)
  live _ _ found := by
    rw [Finmap.lookup_empty] at found
    cases found
  own _ _ _ held := by
    rw [Finmap.lookup_empty] at held
    cases held
  silent _ _ _ := rfl

/-- Every section of a call keeps the order, if no backlog is overtaken. -/
theorem preserves : Preserves (@Flushed SFUEvent)
    (fun service phases => Accounted service phases ∧ Ordered service phases) where
  found _ _ _ event _ holds lookup := ⟨holds.1.found event lookup, holds.2.found event lookup⟩
  queued _ _ _ event holds lookup :=
    ⟨holds.1.queued event lookup, holds.2.queued_event event lookup⟩
  written _ _ _ _ _ _ _ holds flushed := by
    obtain ⟨stream, held, accounted⟩ := holds.1.written
    refine ⟨stream, held, accounted, holds.2.written held fun routes => flushed ?_⟩
    rw [routes]
    rfl
  registered _ _ signalingId _ holds flushed :=
    ⟨holds.1.registered signalingId, holds.2.registered signalingId flushed⟩
  unregistered _ _ signalingId sub holds :=
    ⟨holds.1.unregistered signalingId sub, holds.2.unregistered signalingId sub⟩
  starts service others signalingId holds may := by
    refine ⟨(Accounted.preserves Flushed).starts service others signalingId holds.1 may,
      holds.2.cons nofun fun query same => ?_⟩
    cases (show signalingId = query from same)
    exact may
  registers service others sub holds writable :=
    ⟨(Accounted.preserves Flushed).registers service others sub holds.1 writable,
      holds.2.cons nofun nofun⟩
  rests service others := by
    refine and_congr ((Accounted.preserves Flushed).rests service others) ⟨tail, fun ordered => ?_⟩
    exact ordered.cons nofun nofun
  routed service others signalingId holds :=
    ⟨(Accounted.preserves Flushed).routed service others signalingId holds.1, holds.2.tail⟩
  emptied _ _ _ _ _ holds := ⟨holds.1.emptied, holds.2.tail⟩
  subscribed _ _ _ stream holds fresh unused :=
    ⟨holds.1.subscribe stream fresh, holds.2.subscribe holds.1 fresh unused⟩

end Ordered

/-- **Each stream receives the events of a node in the order in which they were routed**, if
no backlog is overtaken. -/
theorem written_in_order {pool : (routerCalls (@oneAtATime SFUEvent)).Pool}
    (run : Reaches Flushed (Preserves.opened oneAtATime) pool) (signalingId : SignalingId)
    (stream : Stream) :
    List.Sublist (writtenTo signalingId stream (serviceOf pool).log)
      (routedTo signalingId (serviceOf pool).log) := by
  obtain ⟨-, ordered⟩ := Ordered.preserves.reaches ⟨Accounted.empty, Ordered.empty⟩ run
  have ordered : Ordered (serviceOf pool) (phases pool.threads) := ordered
  by_cases held : ∃ sub, (serviceOf pool).writer.lookup sub = some stream
  · obtain ⟨sub, held⟩ := held
    have chain := ordered.ordered signalingId sub stream held [] (.inl rfl) [] (.inl rfl)
    exact (List.sublist_append_left _ _).trans chain
  · rw [ordered.silent signalingId stream (not_exists.mp held)]
    exact List.nil_sublist _

/-! ## An overtaken backlog -/

instance (others : Multiset (RouterPhase SFUEvent)) (signalingId : SignalingId) :
    Decidable (oneAtATime others signalingId) := by
  unfold oneAtATime
  infer_instance

instance : ∀ service phase step others,
    Decidable (@Flushed SFUEvent service phase step others) := by
  intro service (phase : RouterPhase SFUEvent) step (others : Multiset (RouterPhase SFUEvent))
  unfold Flushed
  split <;> infer_instance

/-- What the calls of a pool have in hand. -/
def phasesOf (pool : (routerCalls (@oneAtATime SFUEvent)).Pool) :
    Multiset (RouterPhase SFUEvent) := phases pool.threads

/-- The next event is routed as soon as no other is. -/
def routeNext (event : ℕ) (pool : (routerCalls (@oneAtATime ℕ)).Pool) :
    Option (routerCalls (@oneAtATime ℕ)).Pool :=
  if oneAtATime (phasesOf pool) "node-1" then
    some ⟨pool.state, ⟨RouterPhase.routing "node-1",
      Functor.mapConst () (RouterCall.routeEvent "node-1" event)⟩ :: pool.threads⟩
  else none

theorem routeNext_step {guard : (routerCalls (@oneAtATime ℕ)).Guard} {event : ℕ}
    {pool after : (routerCalls (@oneAtATime ℕ)).Pool} (routed : routeNext event pool = some after) :
    Step guard pool after := by
  unfold routeNext at routed
  split at routed
  · rename_i alone
    cases routed
    exact .start ⟨rfl, .inl ⟨"node-1", event, alone, rfl, rfl⟩⟩
  · cases routed

/-- The first event is routed, and its node registers. -/
def registration : List (routerCalls (@oneAtATime ℕ)).Thread :=
  [⟨RouterPhase.routing "node-1", Functor.mapConst () (RouterCall.routeEvent "node-1" 1)⟩,
    ⟨RouterPhase.registering 0, RouterCall.registerSignaling "node-1" 0⟩]

theorem reaches_registration {guard : (routerCalls (@oneAtATime ℕ)).Guard} :
    Reaches guard (Preserves.opened oneAtATime) ⟨withWriter, registration⟩ := by
  have registers : Step guard ⟨withWriter, []⟩ ⟨withWriter, registration.tail⟩ :=
    .start ⟨rfl, .inr (.inl ⟨"node-1", 0, by decide, rfl, rfl⟩)⟩
  have alone : oneAtATime (phasesOf ⟨withWriter, registration.tail⟩) "node-1" := by decide
  have routes : Step guard ⟨withWriter, registration.tail⟩ ⟨withWriter, registration⟩ :=
    .start ⟨rfl, .inl ⟨"node-1", 1, alone, rfl, rfl⟩⟩
  exact (reaches_withWriter.tail registers).tail routes

/-- The backlog is written, and then the next event. -/
theorem written_in_order_both : ∃ pool, Reaches Flushed (Preserves.opened (@oneAtATime ℕ)) pool ∧
    writtenTo "node-1" 7 (serviceOf pool).log = [1, 2] ∧
      List.Sublist (writtenTo "node-1" 7 (serviceOf pool).log)
        (routedTo "node-1" (serviceOf pool).log) := by
  have replayed : ((((routerSampler (@oneAtATime ℕ)).replay Flushed (List.replicate 5 (0, ()))
      ⟨withWriter, registration⟩).bind (routeNext 2)).bind
      ((routerSampler (@oneAtATime ℕ)).replay Flushed (List.replicate 3 (0, ())))).any
        (fun pool => writtenTo "node-1" 7 (serviceOf pool).log = [1, 2]) = true := by
    decide +kernel
  obtain ⟨pool, run, passed⟩ := Sampler.exists_of_replay_launch (fun _ _ => routeNext_step) replayed
  have run := reaches_registration.trans run
  exact ⟨pool, run, of_decide_eq_true passed, written_in_order run "node-1" 7⟩

/-- **Events arrive out of order**: a node that has taken over its backlog is found by the
next event, which is written before the backlog. -/
theorem overtaken : ∃ pool, Reaches unguarded (Preserves.opened (@oneAtATime ℕ)) pool ∧
    ¬ List.Sublist (writtenTo "node-1" 7 (serviceOf pool).log)
      (routedTo "node-1" (serviceOf pool).log) := by
  have replayed : ((((routerSampler (@oneAtATime ℕ)).replay unguarded (List.replicate 3 (0, ()))
      ⟨withWriter, registration⟩).bind (routeNext 2)).bind
      ((routerSampler (@oneAtATime ℕ)).replay unguarded [(0, ()), (0, ()), (1, ())])).any
        (fun pool => writtenTo "node-1" 7 (serviceOf pool).log = [2, 1] ∧
          routedTo "node-1" (serviceOf pool).log = [1, 2]) = true := by
    decide +kernel
  obtain ⟨pool, run, passed⟩ := Sampler.exists_of_replay_launch (fun _ _ => routeNext_step) replayed
  obtain ⟨written, routed⟩ := of_decide_eq_true passed
  refine ⟨pool, reaches_registration.trans run, ?_⟩
  rw [written, routed]
  decide

end Callifornia.Sfu
