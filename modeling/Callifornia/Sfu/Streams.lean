import Callifornia.Sfu.RouterCalls

/-! # Writes to finished streams

The writer of a stream belongs to the handler of one `SubscribeEvents` call. A call of
`routeEvent` that has found the subscriber of a stream writes to it later, when the
handler may have unregistered it and returned.
-/

namespace Callifornia.Sfu

open FiniteMap Concurrency Concurrency.System Occurrence

variable {SFUEvent : Type}

/-- How far a handler is with its stream, or a call of `routeEvent` with its event. -/
inductive StreamPhase
  | opening (signalingId : SignalingId) (stream : Stream)
  | serving (signalingId : SignalingId) (stream : Stream) (sub : SubscriberId)
  | closing (stream : Stream)
  | routing
  | found (sub : SubscriberId)
  | done
  deriving DecidableEq

namespace StreamPhase

def advance : StreamPhase → (step : RouterStep SFUEvent) → step.Reply → StreamPhase
  | .opening signalingId stream, .subscribe _, sub => .serving signalingId stream sub
  | .serving _ stream _, .unregisterSignaling .., _ => .closing stream
  | .closing _, .return _, _ => .done
  | .routing, .routeEvent .., some sub => .found sub
  | .found _, .write .., _ => .done
  | phase, _, _ => phase

/-- The call is the handler of this stream and has not returned. -/
def Handles (stream : Stream) : StreamPhase → Prop
  | .opening _ own => own = stream
  | .serving _ own _ => own = stream
  | .closing own => own = stream
  | _ => False

instance (stream : Stream) : DecidablePred (Handles stream) := by
  intro phase
  unfold Handles
  split <;> infer_instance

/-- The call has found the subscriber of this stream, and has still to write to it. -/
def WritesTo (service : EventService SFUEvent) (stream : Stream) : StreamPhase → Prop
  | .found sub => service.writer.lookup sub = some stream
  | _ => False

instance (service : EventService SFUEvent) (stream : Stream) :
    DecidablePred (WritesTo service stream) := by
  intro phase
  unfold WritesTo
  split <;> infer_instance

end StreamPhase

/-- No handler has had this stream. -/
def Unused (service : EventService SFUEvent) (others : Multiset StreamPhase)
    (stream : Stream) : Prop :=
  (∀ sub, service.writer.lookup sub ≠ some stream) ∧ .returned stream ∉ service.log ∧
    ∀ other ∈ others, ¬ other.Handles stream

/-- Handlers of `SubscribeEvents`, each with a stream of its own, and calls of `routeEvent`;
a `Write` may fail. -/
def streamCalls (SFUEvent : Type) : System (RouterStep SFUEvent) RouterStep.Reply where
  State := EventService SFUEvent
  Phase := StreamPhase
  Result := Unit
  exec := EventService.exec fun _ => True
  advance := StreamPhase.advance
  start service others phase program after := after = service ∧
    ((∃ signalingId stream, Unused service others stream ∧ phase = .opening signalingId stream ∧
        program = RouterCall.subscribeEvents signalingId stream) ∨
      (∃ signalingId event, phase = .routing ∧
        program = Functor.mapConst () (RouterCall.routeEvent signalingId event)))
  finish service _ _ := service
  discard _ _ := False
  environment _ _ _ := False

/-- A handler returns only when no call that has found its subscriber has still to write. -/
def Drained : (streamCalls SFUEvent).Guard :=
  fun (service : EventService SFUEvent) _ step (others : Multiset StreamPhase) =>
    match step with
    | .return stream => ∀ other ∈ others, ¬ other.WritesTo service stream
    | _ => True

/-- Nothing is written to a stream once its handler has returned. -/
def NoLateWrite (log : List (Occurrence SFUEvent)) : Prop :=
  log.Pairwise fun earlier later => ∀ stream, earlier = .returned stream → later.On stream = false

/-- Every stream that may be written to has a handler that has not returned. -/
structure Alive (service : EventService SFUEvent) (phases : Multiset StreamPhase) : Prop where
  noLateWrite : NoLateWrite service.log
  served : ∀ signalingId sub, service.router.subscribers.lookup signalingId = some sub →
    ∃ stream, .serving signalingId stream sub ∈ phases
  held : ∀ signalingId stream sub, .serving signalingId stream sub ∈ phases →
    service.writer.lookup sub = some stream
  writable : ∀ sub, .found sub ∈ phases → sub ∈ service.writer
  alone : ∀ stream, phases.countP (StreamPhase.Handles stream) ≤ 1
  live : ∀ phase ∈ phases, ∀ stream, phase.Handles stream ∨ phase.WritesTo service stream →
    .returned stream ∉ service.log

namespace NoLateWrite

variable {log more : List (Occurrence SFUEvent)}

/-- A log goes on without a late write when no stream it adds had returned. -/
theorem append (fine : NoLateWrite log) (quiet : ∀ later ∈ more, ∀ stream, later ≠ .returned stream)
    (unreturned : ∀ later ∈ more, ∀ stream, later.On stream = true → .returned stream ∉ log) :
    NoLateWrite (log ++ more) := by
  refine List.pairwise_append.mpr ⟨fine, ?_, ?_⟩
  · apply List.pairwise_of_forall_mem_list
    intro earlier member later _ stream returned
    exact absurd returned (quiet earlier member stream)
  · rintro earlier before later after stream rfl
    by_contra on
    exact unreturned later after stream (Bool.eq_true_of_not_eq_false on) before

/-- Returning from a stream writes nothing. -/
theorem returned (fine : NoLateWrite log) (stream : Stream) :
    NoLateWrite (log ++ [.returned stream]) := by
  refine List.pairwise_append.mpr ⟨fine, List.pairwise_singleton _ _, ?_⟩
  intro earlier _ later last target _
  rw [List.mem_singleton.mp last]
  rfl

end NoLateWrite

namespace Alive

variable {service : EventService SFUEvent} {phases others : Multiset StreamPhase}

/-- More happens, but no stream with a handler or a writing call is given up. -/
theorem happens {more : List (Occurrence SFUEvent)} (alive : Alive service phases)
    (fine : NoLateWrite (service.log ++ more))
    (kept : ∀ phase ∈ phases, ∀ stream, phase.Handles stream ∨ phase.WritesTo service stream →
      .returned stream ∉ more) :
    Alive { service with log := service.log ++ more } phases := by
  refine ⟨fine, alive.served, alive.held, alive.writable, alive.alone, ?_⟩
  intro phase member stream uses inside
  rcases List.mem_append.mp inside with before | now
  · exact alive.live phase member stream uses before
  · exact kept phase member stream uses now

/-- Subscribers are given up. -/
theorem forgets {router : EventRouter SFUEvent} (alive : Alive service phases)
    (fewer : ∀ signalingId sub, router.subscribers.lookup signalingId = some sub →
      service.router.subscribers.lookup signalingId = some sub) :
    Alive { service with router } phases :=
  ⟨alive.noLateWrite, fun signalingId sub found => alive.served signalingId sub
    (fewer signalingId sub found), alive.held, alive.writable, alive.alone, alive.live⟩

/-- A call moves on, and is not the handler of a registered subscriber. -/
theorem moves {phase next : StreamPhase} (alive : Alive service (phase ::ₘ others))
    (idle : ∀ signalingId stream sub, phase = .serving signalingId stream sub →
      service.router.subscribers.lookup signalingId ≠ some sub)
    (handles : ∀ stream, next.Handles stream → phase.Handles stream)
    (apart : ∀ signalingId stream sub, next ≠ .serving signalingId stream sub)
    (found : ∀ sub, next = .found sub → ∃ stream, service.writer.lookup sub = some stream ∧
      .returned stream ∉ service.log) : Alive service (next ::ₘ others) := by
  refine ⟨alive.noLateWrite, ?_, ?_, ?_, ?_, ?_⟩
  · intro signalingId sub registered
    obtain ⟨stream, member⟩ := alive.served signalingId sub registered
    refine ⟨stream, ?_⟩
    rcases Multiset.mem_cons.mp member with same | member
    · exact absurd registered (idle signalingId stream sub same.symm)
    · exact Multiset.mem_cons_of_mem member
  · intro signalingId stream sub member
    rcases Multiset.mem_cons.mp member with same | member
    · exact absurd same.symm (apart signalingId stream sub)
    · exact alive.held signalingId stream sub (Multiset.mem_cons_of_mem member)
  · intro sub member
    rcases Multiset.mem_cons.mp member with same | member
    · obtain ⟨stream, held, -⟩ := found sub same.symm
      exact Finmap.mem_of_lookup_eq_some held
    · exact alive.writable sub (Multiset.mem_cons_of_mem member)
  · intro stream
    have old := alive.alone stream
    rw [Multiset.countP_cons] at old ⊢
    by_cases still : next.Handles stream
    · rw [if_pos (handles stream still)] at old
      rwa [if_pos still]
    · rw [if_neg still]
      omega
  · intro other member stream uses
    rcases Multiset.mem_cons.mp member with rfl | member
    · rcases uses with still | writes
      · exact alive.live phase (Multiset.mem_cons_self _ _) stream (.inl (handles stream still))
      · cases other with
        | found sub =>
            obtain ⟨own, held, unreturned⟩ := found sub rfl
            cases held.symm.trans writes
            exact unreturned
        | _ => cases writes
    · exact alive.live other (Multiset.mem_cons_of_mem member) stream uses

/-- A call that has no stream. -/
theorem cons_iff {phase : StreamPhase} (free : ∀ stream, ¬ phase.Handles stream)
    (idle : ∀ sub, phase ≠ .found sub) :
    Alive service (phase ::ₘ others) ↔ Alive service others := by
  have apart (signalingId : SignalingId) (stream : Stream) (sub : SubscriberId) :
      StreamPhase.serving signalingId stream sub ≠ phase := by
    rintro rfl
    exact free stream rfl
  constructor
  · intro ⟨noLateWrite, served, held, writable, alone, live⟩
    refine ⟨noLateWrite, fun signalingId sub found => ?_,
      fun signalingId stream sub member =>
        held signalingId stream sub (Multiset.mem_cons_of_mem member),
      fun sub member => writable sub (Multiset.mem_cons_of_mem member), fun stream => ?_,
      fun other member => live other (Multiset.mem_cons_of_mem member)⟩
    · obtain ⟨stream, member⟩ := served signalingId sub found
      exact ⟨stream, (Multiset.mem_cons.mp member).resolve_left (apart signalingId stream sub)⟩
    · have count := alone stream
      rwa [Multiset.countP_cons, if_neg (free stream)] at count
  · intro ⟨noLateWrite, served, held, writable, alone, live⟩
    refine ⟨noLateWrite, fun signalingId sub found => ?_, fun signalingId stream sub member => ?_,
      fun sub member => ?_, fun stream => ?_, fun other member stream uses => ?_⟩
    · obtain ⟨stream, member⟩ := served signalingId sub found
      exact ⟨stream, Multiset.mem_cons_of_mem member⟩
    · exact held signalingId stream sub
        ((Multiset.mem_cons.mp member).resolve_left (apart signalingId stream sub))
    · exact writable sub ((Multiset.mem_cons.mp member).resolve_left fun same => idle sub same.symm)
    · rw [Multiset.countP_cons, if_neg (free stream)]
      exact alone stream
    · rcases Multiset.mem_cons.mp member with rfl | member
      · rcases uses with handles | writes
        · exact absurd handles (free stream)
        · cases other with
          | found sub => exact absurd rfl (idle sub)
          | _ => cases writes
      · exact live other member stream uses

/-- A subscription is registered for the stream that is opening. -/
theorem subscribe {signalingId : SignalingId} {stream : Stream} {sub : SubscriberId}
    (alive : Alive service (.opening signalingId stream ::ₘ others))
    (fresh : sub ∉ service.writer) :
    Alive { service with writer := service.writer.insert sub stream }
      (.serving signalingId stream sub ::ₘ others) := by
  have apart {other : SubscriberId} (known : other ∈ service.writer) : other ≠ sub := by
    rintro rfl
    exact fresh known
  have same {other : SubscriberId} (known : other ∈ service.writer) :
      (service.writer.insert sub stream).lookup other = service.writer.lookup other :=
    Finmap.lookup_insert_of_ne _ (apart known)
  refine ⟨alive.noLateWrite, fun query other registered => ?_, ?_, fun other member => ?_,
    fun target => ?_, ?_⟩
  · obtain ⟨own, member⟩ := alive.served query other registered
    rcases Multiset.mem_cons.mp member with same | member
    · cases same
    · exact ⟨own, Multiset.mem_cons_of_mem member⟩
  · intro query own other member
    rcases Multiset.mem_cons.mp member with new | member
    · cases new
      exact Finmap.lookup_insert _
    · have held := alive.held query own other (Multiset.mem_cons_of_mem member)
      rw [same (Finmap.mem_of_lookup_eq_some held)]
      exact held
  · rcases Multiset.mem_cons.mp member with new | member
    · cases new
    · exact Finmap.mem_insert.mpr (.inr (alive.writable other (Multiset.mem_cons_of_mem member)))
  · have old := alive.alone target
    rw [Multiset.countP_cons] at old ⊢
    exact old
  · intro phase member target uses
    rcases Multiset.mem_cons.mp member with rfl | member
    · rcases uses with handles | writes
      · exact alive.live _ (Multiset.mem_cons_self _ _) target (.inl handles)
      · cases writes
    · refine alive.live phase (Multiset.mem_cons_of_mem member) target (uses.imp_right ?_)
      intro writes
      cases phase with
      | found other =>
          have known := alive.writable other (Multiset.mem_cons_of_mem member)
          exact (same known).symm.trans writes
      | _ => cases writes

/-- The router learns of a subscription that the writer already has. -/
theorem register {signalingId : SignalingId} {stream : Stream} {sub : SubscriberId}
    (alive : Alive service (.serving signalingId stream sub ::ₘ others)) :
    Alive
      { service with
        router := (service.router.registerSignaling signalingId sub).2
        log := service.log ++ [.registered signalingId sub] }
      (.serving signalingId stream sub ::ₘ others) := by
  have registers : Alive
      { service with router := (service.router.registerSignaling signalingId sub).2 }
      (.serving signalingId stream sub ::ₘ others) := by
    refine ⟨alive.noLateWrite, fun query other found => ?_, alive.held, alive.writable,
      alive.alone, alive.live⟩
    simp only [EventRouter.registerSignaling, lookup_insert_if] at found
    split at found
    · rename_i same
      subst same
      cases found
      exact ⟨stream, Multiset.mem_cons_self _ _⟩
    · exact alive.served query other found
  refine registers.happens (alive.noLateWrite.append ?_ ?_) ?_
  · simp
  · refine List.forall_mem_singleton.mpr fun other on => ?_
    cases on
  · simp

/-- Whoever may write to a stream does so before its handler returns. -/
theorem write {phase : StreamPhase} {stream : Stream} (alive : Alive service (phase ::ₘ others))
    (uses : phase.Handles stream ∨ phase.WritesTo service stream) (signalingId : SignalingId)
    (event : SFUEvent) (ok : Bool) :
    Alive { service with log := service.log ++ [.written signalingId stream event ok] }
      (phase ::ₘ others) := by
  have unreturned := alive.live phase (Multiset.mem_cons_self _ _) stream uses
  refine alive.happens (alive.noLateWrite.append ?_ ?_) ?_
  · exact List.forall_mem_singleton.mpr nofun
  · refine List.forall_mem_singleton.mpr fun target on => ?_
    rwa [← of_decide_eq_true on]
  · simp

/-- A subscription that ends is taken off the router. -/
theorem unregister {signalingId : SignalingId} {stream : Stream} {sub : SubscriberId}
    (alive : Alive service (.serving signalingId stream sub ::ₘ others)) :
    Alive { service with router := service.router.unregisterSignaling signalingId sub }
      (.closing stream ::ₘ others) := by
  have forgotten : Alive
      { service with router := service.router.unregisterSignaling signalingId sub }
      (.serving signalingId stream sub ::ₘ others) :=
    alive.forgets fun query other => EventRouter.subscribers_unregisterSignaling _ _
  refine forgotten.moves ?_ (fun _ handles => handles) nofun nofun
  rintro query target other ⟨rfl, rfl, rfl⟩ found
  simp only [EventRouter.unregisterSignaling] at found
  split at found
  · simp only [lookup_erase_if, ↓reduceIte] at found
    cases found
  · contradiction

/-- A handler returns. -/
theorem returns {stream : Stream} (alive : Alive service (.closing stream ::ₘ others))
    (drained : ∀ other ∈ others, ¬ other.WritesTo service stream) :
    Alive { service with log := service.log ++ [.returned stream] } (.done ::ₘ others) := by
  have moved : Alive service (.done ::ₘ others) :=
    alive.moves nofun (fun _ never => never.elim) nofun nofun
  refine moved.happens (alive.noLateWrite.returned stream) ?_
  intro phase member target uses inside
  cases List.mem_singleton.mp inside
  rcases Multiset.mem_cons.mp member with rfl | member
  · rcases uses with never | never
    · exact never
    · exact never
  · rcases uses with handles | writes
    · -- the stream would have two handlers
      have alone := alive.alone stream
      rw [Multiset.countP_cons, if_pos (show StreamPhase.Handles stream (.closing stream) from rfl)]
        at alone
      exact Multiset.countP_eq_zero.mp (by omega) phase member handles
    · exact drained phase member writes

/-- A new stream opens. -/
theorem opens {stream : Stream} (alive : Alive service others)
    (unused : Unused service others stream)
    (signalingId : SignalingId) : Alive service (.opening signalingId stream ::ₘ others) := by
  obtain ⟨-, unreturned, unhandled⟩ := unused
  refine ⟨alive.noLateWrite, fun query sub found => ?_, fun query target sub member => ?_,
    fun sub member => ?_, fun target => ?_, fun phase member target uses => ?_⟩
  · obtain ⟨own, member⟩ := alive.served query sub found
    exact ⟨own, Multiset.mem_cons_of_mem member⟩
  · exact alive.held query target sub ((Multiset.mem_cons.mp member).resolve_left nofun)
  · exact alive.writable sub ((Multiset.mem_cons.mp member).resolve_left nofun)
  · rw [Multiset.countP_cons]
    by_cases same : stream = target
    · subst same
      rw [Multiset.countP_eq_zero.mpr unhandled]
      split <;> omega
    · rw [if_neg (show ¬ StreamPhase.Handles target (.opening signalingId stream) from same)]
      exact alive.alone target
  · rcases Multiset.mem_cons.mp member with rfl | member
    · rcases uses with same | never
      · cases (show stream = target from same)
        exact unreturned
      · cases never
    · exact alive.live phase member target uses

/-- A call that has found a subscriber finds its handler still there. -/
theorem finds {signalingId : SignalingId} {sub : SubscriberId}
    (alive : Alive service (.routing ::ₘ others))
    (found : service.router.subscribers.lookup signalingId = some sub) :
    Alive service (.found sub ::ₘ others) := by
  refine alive.moves nofun (fun _ never => never.elim) nofun ?_
  intro other same
  cases same
  obtain ⟨stream, member⟩ := alive.served signalingId sub found
  refine ⟨stream, alive.held signalingId stream sub member, ?_⟩
  exact alive.live _ member stream (.inl rfl)

/-- Routing an event keeps the account of the streams. -/
theorem routes (alive : Alive service (.routing ::ₘ others)) {signalingId : SignalingId}
    {event : SFUEvent} {reply : Option SubscriberId} {after : EventService SFUEvent}
    (effect : (reply, after) = service.routeEvent signalingId event) :
    Alive after (StreamPhase.advance .routing (.routeEvent signalingId event) reply ::ₘ
      others) := by
  unfold EventService.routeEvent at effect
  cases found : service.router.subscribers.lookup signalingId with
  | some sub =>
      rw [found] at effect
      cases effect
      refine (alive.finds found).happens (alive.noLateWrite.append ?_ ?_) ?_
      · exact List.forall_mem_singleton.mpr nofun
      · exact List.forall_mem_singleton.mpr nofun
      · simp
  | none =>
      rw [found] at effect
      cases effect
      have queued : Alive { service with router := (service.router.enqueue signalingId event).2 }
          (.routing ::ₘ others) := alive.forgets fun _ _ found => found
      have happened : ∀ later ∈ Occurrence.routed signalingId event :: .queued signalingId event ::
          (service.router.enqueue signalingId event).1.map (.evicted signalingId),
          ∀ stream, later ≠ .returned stream ∧ later.On stream = false := by
        intro later member stream
        simp only [List.mem_cons] at member
        rcases member with rfl | rfl | member
        · exact ⟨nofun, rfl⟩
        · exact ⟨nofun, rfl⟩
        · obtain ⟨dropped, -, rfl⟩ := List.mem_map.mp member
          exact ⟨nofun, rfl⟩
      refine queued.happens (alive.noLateWrite.append ?_ ?_) ?_
      · exact fun later member stream => (happened later member stream).1
      · intro later member stream on
        rw [(happened later member stream).2] at on
        cases on
      · exact fun _ _ stream _ inside => (happened _ inside stream).1 rfl

/-- Before the first stream nothing is subscribed. -/
theorem empty : Alive ({} : EventService SFUEvent) 0 where
  noLateWrite := List.Pairwise.nil
  served _ _ found := by
    rw [Finmap.lookup_empty] at found
    cases found
  held _ _ _ member := absurd member (Multiset.notMem_zero _)
  writable _ member := absurd member (Multiset.notMem_zero _)
  alone _ := Nat.zero_le _
  live _ member := absurd member (Multiset.notMem_zero _)

end Alive

/-! ## Calls -/

/-- The outline of the streams. -/
def streaming (SFUEvent : Type) : Outline (streamCalls SFUEvent) where
  guard := Drained
  inv := Alive
  asserts _ _ _ := True

/-- The backlog is flushed to a stream that is being served. -/
theorem flush_safe (signalingId : SignalingId) (stream : Stream) (sub : SubscriberId)
    (backlog : List SFUEvent) :
    (streaming SFUEvent).Safe (fun phase _ => phase = .serving signalingId stream sub)
      (.serving signalingId stream sub) (RouterCall.flush signalingId sub backlog) := by
  induction backlog with
  | nil => rfl
  | cons event backlog ih =>
      intro service others alive _
      refine ⟨trivial, fun reply after effect => ?_⟩
      have held := alive.held signalingId stream sub (Multiset.mem_cons_self _ _)
      simp only [streamCalls, EventService.exec, held] at effect
      obtain ⟨ok, -, rfl, rfl⟩ := effect
      refine ⟨alive.write (.inl rfl) signalingId event ok, ?_⟩
      cases ok with
      | true => exact ih
      | false => rfl

/-- A subscription is served from its opening to its end. -/
theorem subscribeEvents_safe (signalingId : SignalingId) (stream : Stream) :
    (streaming SFUEvent).Safe (fun phase _ => phase = .done) (.opening signalingId stream)
      (RouterCall.subscribeEvents signalingId stream) := by
  intro service others alive _
  refine ⟨trivial, fun sub after ⟨fresh, same⟩ => ?_⟩
  subst same
  refine ⟨alive.subscribe fresh, ?_⟩
  intro service others alive _
  refine ⟨trivial, fun backlog after ⟨_, same⟩ => ?_⟩
  subst same
  refine ⟨alive.register, Outline.Safe.bind ((flush_safe signalingId stream sub backlog).mono ?_)⟩
  rintro phase _ rfl service others alive -
  refine ⟨trivial, fun reply after same => ?_⟩
  cases (show after = _ from same)
  refine ⟨alive.unregister, ?_⟩
  intro service others alive drained
  refine ⟨trivial, fun reply after same => ?_⟩
  cases (show after = _ from same)
  exact ⟨alive.returns drained, rfl⟩

/-- An event is routed to its end. -/
theorem routeEvent_safe (signalingId : SignalingId) (event : SFUEvent) :
    (streaming SFUEvent).Safe (fun phase _ => phase = .routing ∨ phase = .done) .routing
      (RouterCall.routeEvent signalingId event) := by
  intro service others alive _
  refine ⟨trivial, fun reply after effect => ⟨alive.routes effect, ?_⟩⟩
  cases reply with
  | none => exact .inl rfl
  | some sub =>
      intro service others alive _
      have leaves {service : EventService SFUEvent}
          (alive : Alive service (.found sub ::ₘ others)) : Alive service (.done ::ₘ others) :=
        alive.moves nofun (fun _ never => never.elim) nofun nofun
      refine ⟨trivial, fun reply after effect => ?_⟩
      cases held : Finmap.lookup sub (EventService.writer service) with
      | none =>
          simp only [streamCalls, EventService.exec, held] at effect
          obtain ⟨rfl, rfl⟩ := effect
          exact ⟨leaves alive, .inr rfl⟩
      | some stream =>
          simp only [streamCalls, EventService.exec, held] at effect
          obtain ⟨ok, -, rfl, rfl⟩ := effect
          exact ⟨leaves (alive.write (.inr held) signalingId event ok), .inr rfl⟩

/-- The state of the streams is kept by the steps of the other calls. -/
theorem streaming_stable : (streaming SFUEvent).Stable where
  start := by
    rintro service others phase program after ⟨rfl, called⟩ alive
    have ends {phase : StreamPhase} (resting : phase = .routing ∨ phase = .done) :
        (streaming SFUEvent).MayFinish phase () := by
      intro service others alive
      rcases resting with rfl | rfl
      · exact (@Alive.cons_iff _ _ _ .routing (fun _ never => never) nofun).mp alive
      · exact (@Alive.cons_iff _ _ _ .done (fun _ never => never) nofun).mp alive
    rcases called with ⟨signalingId, stream, unused, rfl, rfl⟩ | ⟨signalingId, event, rfl, rfl⟩
    · refine ⟨Alive.opens alive unused signalingId, ?_⟩
      exact (subscribeEvents_safe signalingId stream).mono fun _ _ done => ends (.inr done)
    · refine ⟨(@Alive.cons_iff _ _ _ .routing (fun _ never => never) nofun).mpr alive, .mapConst ?_⟩
      exact (routeEvent_safe signalingId event).mono fun _ _ resting => ends resting
  discard _ _ _ never := never.elim
  environment _ _ _ never := never.elim

/-- A new router without calls. -/
def unopened : (streamCalls SFUEvent).Pool := ⟨({} : EventService SFUEvent), []⟩

/-- What has happened to the events of a pool. -/
def logOf (pool : (streamCalls SFUEvent).Pool) : List (Occurrence SFUEvent) :=
  (show EventService SFUEvent from pool.state).log

/-- **Nothing is written to a finished stream**, if a handler returns only when no call
that has found its subscriber has still to write. -/
theorem noLateWrite_of_reaches {pool : (streamCalls SFUEvent).Pool}
    (run : Reaches Drained unopened pool) : NoLateWrite (logOf pool) := by
  have initial : (streaming SFUEvent).Holds unopened := .of_quiescent Alive.empty
  exact (initial.reaches streaming_stable run).1.noLateWrite

/-! ## A write that comes too late -/

/-- The test of `Drained`. -/
def drains (service : EventService SFUEvent) (step : RouterStep SFUEvent)
    (others : Multiset StreamPhase) : Bool :=
  match step with
  | .return stream => decide (∀ other ∈ others, ¬ other.WritesTo service stream)
  | _ => true

/-- The test that a run of the streams makes of each step is the condition on it. -/
theorem drains_iff {service : EventService SFUEvent} {phase : StreamPhase}
    {step : RouterStep SFUEvent} {others : Multiset StreamPhase} :
    drains service step others = true ↔ @Drained SFUEvent service phase step others := by
  cases step <;> simp [drains, Drained]

instance : ∀ service phase step others, Decidable (@Drained SFUEvent service phase step others) :=
  fun _ _ _ _ => decidable_of_iff _ drains_iff

/-- The sections of a router whose first subscriber is new. -/
def streamSampler : (streamCalls ℕ).Sampler Unit where
  sample _ step service :=
    match step with
    | .subscribe stream =>
        if Finmap.lookup 0 (EventService.writer service) = none then
          some (0, { service with writer := (EventService.writer service).insert 0 stream })
        else none
    | step => sampleStep step service
  sound := by
    intro hint step service reply after sampled
    cases step with
    | subscribe stream =>
        simp only at sampled
        split at sampled
        · rename_i fresh
          cases sampled
          exact ⟨Finmap.lookup_eq_none.mp fresh, rfl⟩
        · cases sampled
    | _ => exact @sampleStep_sound _ (fun _ => True) trivial _ _ _ _ sampled

/-- A node subscribes, and an event is routed to it. -/
def subscription : List (streamCalls ℕ).Thread :=
  [⟨StreamPhase.opening "node-1" 7, RouterCall.subscribeEvents "node-1" 7⟩,
    ⟨StreamPhase.routing, Functor.mapConst () (RouterCall.routeEvent "node-1" 1)⟩]

/-- One subscription is open from the start. -/
theorem reaches_subscription {guard : (streamCalls ℕ).Guard} :
    Reaches guard unopened ⟨({} : EventService ℕ), subscription⟩ := by
  have unused : Unused ({} : EventService ℕ) {StreamPhase.routing} 7 := by
    refine ⟨fun sub found => ?_, by decide, by decide⟩
    cases (Finmap.lookup_empty (β := fun _ : SubscriberId => Stream) sub).symm.trans found
  have routes : Step guard unopened ⟨({} : EventService ℕ), subscription.tail⟩ :=
    .start ⟨rfl, .inr ⟨"node-1", 1, rfl, rfl⟩⟩
  have subscribes : Step guard ⟨({} : EventService ℕ), subscription.tail⟩
      ⟨({} : EventService ℕ), subscription⟩ :=
    .start ⟨rfl, .inl ⟨"node-1", 7, unused, rfl, rfl⟩⟩
  exact .tail (.single routes) subscribes

/-- The event is written before the handler returns. -/
theorem noLateWrite_of_reaches_served : ∃ pool, Reaches Drained (@unopened ℕ) pool ∧
    logOf pool = [.registered "node-1" 0, .routed "node-1" 1, .written "node-1" 7 1 true,
      .returned 7] ∧ NoLateWrite (logOf pool) := by
  have replayed : (streamSampler.replay Drained
      [(0, ()), (0, ()), (1, ()), (0, ()), (1, ()), (0, ())]
        ⟨({} : EventService ℕ), subscription⟩).any
      (fun pool => logOf pool = [.registered "node-1" 0, .routed "node-1" 1,
        .written "node-1" 7 1 true, .returned 7]) = true := by
    decide +kernel
  obtain ⟨pool, run, passed⟩ := Sampler.exists_of_replay replayed
  have run := reaches_subscription.trans run
  exact ⟨pool, run, of_decide_eq_true passed, noLateWrite_of_reaches run⟩

/-- **The event is written to a finished stream**: its subscriber was found, and the handler
returned before the write. -/
theorem late_write : ∃ pool, Reaches unguarded (@unopened ℕ) pool ∧ ¬ NoLateWrite (logOf pool) := by
  have replayed : (streamSampler.replay unguarded
      [(0, ()), (0, ()), (1, ()), (0, ()), (0, ()), (1, ())]
        ⟨({} : EventService ℕ), subscription⟩).any
      (fun pool => logOf pool = [.registered "node-1" 0, .routed "node-1" 1, .returned 7,
        .written "node-1" 7 1 true]) = true := by
    decide +kernel
  obtain ⟨pool, run, passed⟩ := Sampler.exists_of_replay replayed
  refine ⟨pool, reaches_subscription.trans run, ?_⟩
  rw [of_decide_eq_true passed]
  intro fine
  have later := (List.pairwise_cons.mp (List.pairwise_cons.mp (List.pairwise_cons.mp fine).2).2).1
  cases later _ (List.mem_singleton_self _) 7 rfl

end Callifornia.Sfu
