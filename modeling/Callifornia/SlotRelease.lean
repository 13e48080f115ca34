import Callifornia.Replay
import Callifornia.Signaling.Footprint
import Callifornia.Supervisor.Footprint

/-! # The SFU slot of one room

Any number of runs of the paths that tear rooms down: a detached peer, the close
task of a node, the rollback of a create, the supervisor's handling of a dead SFU
and its janitor. The node releases the slot after its `DEL` has removed the
binding; the supervisor releases it before, on account of a binding it has read.
-/

namespace Callifornia.SlotRelease

open Concurrency Concurrency.System FiniteMap Store Signaling Supervisor

/-- Which service a run belongs to, and what makes the supervisor reclaim a room. -/
inductive Role
  | signaling
  /-- The janitor before it has read which nodes are alive. -/
  | janitor
  | supervisor (reclaims : RoomBinding → Bool)

/-- How far a run is with tearing down the room. -/
inductive Stage
  | idle
  /-- A node has read the instance of the binding. -/
  | found (instanceId : Option InstanceId)
  /-- A node has deleted the binding and not yet released the slot. -/
  | owes
  /-- The supervisor has read a binding it reclaims. -/
  | claims
  /-- The supervisor has released the slot and not yet deleted the binding. -/
  | paid
  deriving DecidableEq

/-- A run, with the decrements it has performed on account of the room. -/
structure Phase where
  role : Role
  stage : Stage
  released : ℕ

namespace Phase

variable (room : RoomId)

/-- The janitor reclaims the rooms of owners that are not alive. -/
def orphaned (alive : List NodeId) (binding : RoomBinding) : Bool :=
  binding.ownerId ≠ "" ∧ binding.ownerId ∉ alive

/-- The supervisor handles the rooms of the dead SFU. -/
def onSfu (sfuGrpcAddr : Address) (binding : RoomBinding) : Bool :=
  binding.sfuGrpcAddr = some sfuGrpcAddr

/-- The fields are those of a binding to reclaim. -/
def Reclaims (reclaims : RoomBinding → Bool) (values : Map String String) : Prop :=
  ∃ binding ∈ RoomBinding.ofFields room values, reclaims binding = true

instance (reclaims : RoomBinding → Bool) (values : Map String String) :
    Decidable (Reclaims room reclaims values) :=
  inferInstanceAs (Decidable (∃ binding ∈ RoomBinding.ofFields room values, _))

def advance : Phase → (op : Op) → op.Reply → Phase
  | ⟨.signaling, .idle, count⟩, .redis (.hget (.binding roomId) _), .ok instanceId =>
      ⟨.signaling, if roomId = room then .found instanceId else .idle, count⟩
  | ⟨.signaling, .found instanceId, count⟩, .redis (.del (.binding _)), .ok deleted =>
      ⟨.signaling, if deleted = 0 ∨ instanceId = none then .idle else .owes, count⟩
  | ⟨.signaling, .owes, count⟩, .redis (.zadd .roomLoad ..), _ => ⟨.signaling, .idle, count + 1⟩
  | ⟨.janitor, .idle, count⟩, .redis (.zrangeByScore ..), .ok alive =>
      ⟨.supervisor (orphaned alive), .idle, count⟩
  | ⟨.supervisor reclaims, .idle, count⟩, .redis (.hgetall (.binding roomId)), .ok values =>
      ⟨.supervisor reclaims,
        if roomId = room ∧ Reclaims room reclaims values then .claims else .idle, count⟩
  | ⟨.supervisor reclaims, .claims, count⟩, .redis (.zadd .roomLoad ..), _ =>
      ⟨.supervisor reclaims, .paid, count + 1⟩
  | ⟨.supervisor reclaims, .paid, count⟩, .redis (.del (.binding _)), _ =>
      ⟨.supervisor reclaims, .idle, count⟩
  | phase, _, _ => phase

/-- The supervisor is between reading the binding and deleting it. -/
def Holds (phase : Phase) : Prop := phase.stage = .claims ∨ phase.stage = .paid

instance : DecidablePred Holds := fun _ => inferInstanceAs (Decidable (_ ∨ _))

/-- None of these runs is one of the supervisor between its read and its `DEL`. -/
def Apart (others : Multiset Phase) : Prop := ∀ other ∈ others, ¬ other.Holds

instance : DecidablePred Apart := fun others =>
  inferInstanceAs (Decidable (∀ other ∈ others, ¬ Holds other))

end Phase

/-- The teardown paths on any rooms, SFUs and nodes. Outside them, anything may
change but the binding of the room. -/
def threads (room : RoomId) : Threads where
  Phase := Phase
  Ghost := ℕ
  Result := Unit
  advance := Phase.advance room
  start before _ phase program after := after = before ∧
    ((∃ (state : State) (roomId : RoomId) (nickname : Nickname) (reason : String),
        phase = ⟨.signaling, .idle, 0⟩ ∧ program = state.detachPeer roomId nickname reason) ∨
      (∃ (state : State) (sfuAddr : Address) (reason : String),
        phase = ⟨.signaling, .idle, 0⟩ ∧ program = state.closeRoomsDueToSfuAddr sfuAddr reason) ∨
      (∃ roomId : RoomId, phase = ⟨.signaling, .idle, 0⟩ ∧ program = undoBinding roomId) ∨
      (∃ (config : Supervisor.Config) (sfuGrpcAddr : Address),
        phase = ⟨.supervisor (Phase.onSfu sfuGrpcAddr), .idle, 0⟩ ∧
          program = handleDeadSfu config sfuGrpcAddr) ∨
      ∃ config : Supervisor.Config, phase = ⟨.janitor, .idle, 0⟩ ∧
        program = logged (runJanitorIteration config))
  finish state phase _ := (state.1, state.2 + phase.released)
  environment before _ after :=
    after.1.redis.bindings.lookup room = before.1.redis.bindings.lookup room ∧ after.2 = before.2

/-- The room has a binding that names an SFU instance. -/
def Bound (room : RoomId) (world : World) : Prop :=
  ∃ hash instanceId, world.redis.bindings.lookup room = some hash ∧
    hash.get "sfu_instance_id" = some instanceId ∧ instanceId ≠ ""

/-- The binding of the room is gone. -/
def Gone (room : RoomId) (world : World) : Prop := world.redis.bindings.lookup room = none

instance (room : RoomId) (world : World) : Decidable (Gone room world) :=
  inferInstanceAs (Decidable (_ = _))

/-- While a supervisor path is between its read of a binding it reclaims and its
`DEL`, no other supervisor path reads the binding to reclaim it, and no node
executes a `DEL` of it. -/
def Allowed (room : RoomId) (world : World) : Phase → Op → Multiset Phase → Prop
  | ⟨.supervisor reclaims, .idle, _⟩, .redis (.hgetall (.binding roomId)), others =>
      roomId = room →
        (∃ hash ∈ world.redis.bindings.lookup room, Phase.Reclaims room reclaims hash.fields) →
        Phase.Apart others
  | ⟨.signaling, .found _, _⟩, .redis (.del (.binding _)), others =>
      ¬ Gone room world → Phase.Apart others
  | _, _, _ => True

def guard (room : RoomId) : (threads room).system.Guard :=
  fun state phase op others => Allowed room state.1 phase op others

/-- What the decrements performed so far and the runs in progress add up to. -/
structure Accounted (room : RoomId) (state : World × ℕ) (phases : Multiset Phase) : Prop where
  bound : ¬ Gone room state.1 → Bound room state.1 ∧
    (∀ phase ∈ phases, phase.stage ≠ .owes ∧ phase.stage ≠ .found none) ∧
    phases.countP Phase.Holds ≤ 1 ∧
    state.2 + (phases.map Phase.released).sum = phases.countP fun phase => phase.stage = .paid
  gone : Gone room state.1 → (∀ phase ∈ phases, ¬ phase.Holds) ∧
    state.2 + (phases.map Phase.released).sum +
      phases.countP (fun phase => phase.stage = .owes) = 1

def outline (room : RoomId) : Outline (threads room).system where
  guard := guard room
  inv := Accounted room
  asserts _ _ _ := True

variable {room : RoomId} {world : World} {count released : ℕ} {others : Multiset Phase}
  {role : Role} {reclaims : RoomBinding → Bool}

/-! ## Each step keeps the account -/

/-- The account only looks at the binding of the room. -/
theorem Accounted.congr {phases : Multiset Phase} {after : World}
    (accounted : Accounted room (world, released) phases)
    (same : after.redis.bindings.lookup room = world.redis.bindings.lookup room) :
    Accounted room (after, released) phases := by
  have gone : Gone room after ↔ Gone room world := by rw [Gone, Gone, same]
  constructor
  · intro present
    obtain ⟨⟨hash, instanceId, found, named⟩, rest⟩ :=
      accounted.bound fun absent => present (gone.mpr absent)
    exact ⟨⟨hash, instanceId, same.trans found, named⟩, rest⟩
  · intro absent
    exact accounted.gone (gone.mp absent)

/-- The account with one run set apart. -/
theorem accounted_cons {phase : Phase} :
    Accounted room (world, released) (phase ::ₘ others) ↔
      (¬ Gone room world → Bound room world ∧
        (phase.stage ≠ .owes ∧ phase.stage ≠ .found none) ∧
        (∀ other ∈ others, other.stage ≠ .owes ∧ other.stage ≠ .found none) ∧
        others.countP Phase.Holds + (if phase.Holds then 1 else 0) ≤ 1 ∧
        released + (phase.released + (others.map Phase.released).sum) =
          others.countP (fun other => other.stage = .paid) +
            if phase.stage = .paid then 1 else 0) ∧
      (Gone room world → ¬ phase.Holds ∧ (∀ other ∈ others, ¬ other.Holds) ∧
        released + (phase.released + (others.map Phase.released).sum) +
          (others.countP (fun other => other.stage = .owes) +
            if phase.stage = .owes then 1 else 0) = 1) := by
  constructor
  · intro ⟨bound, gone⟩
    simp only [Multiset.mem_cons, forall_eq_or_imp, Multiset.countP_cons, Multiset.map_cons,
      Multiset.sum_cons, and_assoc] at bound gone ⊢
    exact ⟨bound, gone⟩
  · intro ⟨bound, gone⟩
    constructor <;>
      simp only [Multiset.mem_cons, forall_eq_or_imp, Multiset.countP_cons, Multiset.map_cons,
        Multiset.sum_cons, and_assoc] at bound gone ⊢
    · exact bound
    · exact gone

/-- An idle task holds no slot. -/
@[simp] theorem not_holds_idle : ¬ (⟨role, .idle, count⟩ : Phase).Holds := by simp [Phase.Holds]

/-- Who has found an instance holds no slot yet. -/
@[simp] theorem not_holds_found {instanceId : Option InstanceId} :
    ¬ (⟨role, .found instanceId, count⟩ : Phase).Holds := by simp [Phase.Holds]

/-- Who owes a release holds no slot any more. -/
@[simp] theorem not_holds_owes : ¬ (⟨role, .owes, count⟩ : Phase).Holds := by simp [Phase.Holds]

/-- Who claims the slot holds it. -/
@[simp] theorem holds_claims : (⟨role, .claims, count⟩ : Phase).Holds := .inl rfl

/-- Who has paid still holds it. -/
@[simp] theorem holds_paid : (⟨role, .paid, count⟩ : Phase).Holds := .inr rfl

/-- An idle run may take up another role. -/
theorem Accounted.idle {other : Role}
    (accounted : Accounted room (world, released) (⟨role, .idle, count⟩ ::ₘ others)) :
    Accounted room (world, released) (⟨other, .idle, count⟩ ::ₘ others) := by
  rw [accounted_cons] at accounted ⊢
  simpa using accounted

/-- A node reads the instance of the binding. -/
theorem Accounted.find
    (accounted : Accounted room (world, released) (⟨.signaling, .idle, count⟩ ::ₘ others)) :
    Accounted room (world, released) (⟨.signaling, .found
      ((world.redis.bindings.lookup room).bind (·.get "sfu_instance_id")), count⟩ ::ₘ others) := by
  rw [accounted_cons] at accounted ⊢
  obtain ⟨bound, gone⟩ := accounted
  refine ⟨fun present => ?_, fun absent => by simpa using gone absent⟩
  obtain ⟨⟨hash, instanceId, found, named, filled⟩, -, rest⟩ := bound present
  refine ⟨⟨hash, instanceId, found, named, filled⟩, ?_, by simpa using rest⟩
  simp only [found, Option.bind_some, named, ne_eq, reduceCtorEq, not_false_eq_true,
    Stage.found.injEq, and_self]

/-- A node deletes the binding: it owes the slot if the binding was there. -/
theorem Accounted.remove {instanceId : Option InstanceId}
    (accounted : Accounted room (world, released)
      (⟨.signaling, .found instanceId, count⟩ ::ₘ others))
    (alone : ¬ Gone room world → ∀ other ∈ others, ¬ Phase.Holds other) :
    Accounted room ({ world with redis := world.redis.delHash (.binding room) }, released)
      (⟨.signaling, if (if (world.redis.hash (.binding room)).isSome then 1 else 0) = 0 ∨
        instanceId = none then .idle else .owes, count⟩ ::ₘ others) := by
  have absent : Gone room { world with redis := world.redis.delHash (.binding room) } :=
    Finmap.lookup_erase room world.redis.bindings
  rw [accounted_cons] at accounted ⊢
  refine ⟨fun present => absurd absent present, fun _ => ?_⟩
  obtain ⟨bound, gone⟩ := accounted
  cases found : world.redis.bindings.lookup room with
  | none =>
      have before := gone found
      simp only [Redis.hash, found]
      simpa using before
  | some hash =>
      have present : ¬ Gone room world := fun absent => by
        rw [Gone, found] at absent
        cases absent
      obtain ⟨-, ⟨-, named⟩, settled, -, balance⟩ := bound present
      have named : instanceId ≠ none := fun same => named (by rw [same])
      have unpaid : others.countP (fun other => other.stage = .paid) = 0 :=
        Multiset.countP_eq_zero.mpr fun other member paid => alone present other member (.inr paid)
      have free : others.countP (fun other => other.stage = .owes) = 0 :=
        Multiset.countP_eq_zero.mpr fun other member => (settled other member).1
      rw [unpaid] at balance
      simp only [Redis.hash, found, Option.isSome_some, ↓reduceIte, one_ne_zero, named, or_self,
        not_holds_owes, not_false_eq_true, free, true_and]
      refine ⟨alone present, ?_⟩
      simp only [reduceCtorEq, ↓reduceIte] at balance
      omega

/-- A node releases the slot it owes. -/
theorem Accounted.pay
    (accounted : Accounted room (world, released) (⟨.signaling, .owes, count⟩ ::ₘ others)) :
    Accounted room (world, released) (⟨.signaling, .idle, count + 1⟩ ::ₘ others) := by
  rw [accounted_cons] at accounted ⊢
  obtain ⟨bound, gone⟩ := accounted
  refine ⟨fun present => absurd rfl (bound present).2.1.1, fun absent => ?_⟩
  obtain ⟨-, apart, balance⟩ := gone absent
  refine ⟨not_holds_idle, apart, ?_⟩
  simp only [↓reduceIte, reduceCtorEq] at balance ⊢
  omega

/-- The supervisor reads a binding it reclaims. -/
theorem Accounted.claim
    (accounted : Accounted room (world, released) (⟨role, .idle, count⟩ ::ₘ others))
    (present : ¬ Gone room world) (alone : ∀ other ∈ others, ¬ Phase.Holds other) :
    Accounted room (world, released) (⟨role, .claims, count⟩ ::ₘ others) := by
  rw [accounted_cons] at accounted ⊢
  obtain ⟨bound, -⟩ := accounted
  refine ⟨fun _ => ?_, fun absent => absurd absent present⟩
  obtain ⟨named, -, settled, -, balance⟩ := bound present
  have none_holds : others.countP Phase.Holds = 0 := Multiset.countP_eq_zero.mpr alone
  refine ⟨named, by simp, settled, by simp [none_holds], by simpa using balance⟩

/-- The supervisor releases the slot of the binding it has read. -/
theorem Accounted.settle
    (accounted : Accounted room (world, released) (⟨role, .claims, count⟩ ::ₘ others)) :
    Accounted room (world, released) (⟨role, .paid, count + 1⟩ ::ₘ others) := by
  rw [accounted_cons] at accounted ⊢
  obtain ⟨bound, gone⟩ := accounted
  refine ⟨fun present => ?_, fun absent => absurd holds_claims (gone absent).1⟩
  obtain ⟨named, -, settled, single, balance⟩ := bound present
  refine ⟨named, by simp, settled, by simpa using single, ?_⟩
  simp only [↓reduceIte, reduceCtorEq] at balance ⊢
  omega

/-- The supervisor deletes the binding whose slot it has released. -/
theorem Accounted.drop
    (accounted : Accounted room (world, released) (⟨role, .paid, count⟩ ::ₘ others)) :
    Accounted room ({ world with redis := world.redis.delHash (.binding room) }, released)
      (⟨role, .idle, count⟩ ::ₘ others) := by
  have absent : Gone room { world with redis := world.redis.delHash (.binding room) } :=
    Finmap.lookup_erase room world.redis.bindings
  rw [accounted_cons] at accounted ⊢
  obtain ⟨bound, gone⟩ := accounted
  refine ⟨fun present => absurd absent present, fun _ => ?_⟩
  have present : ¬ Gone room world := fun absent => (gone absent).1 holds_paid
  obtain ⟨-, -, settled, single, balance⟩ := bound present
  have alone : others.countP Phase.Holds = 0 := by
    simp only [holds_paid, ↓reduceIte] at single
    omega
  have apart := Multiset.countP_eq_zero.mp alone
  have unpaid : others.countP (fun other => other.stage = .paid) = 0 :=
    Multiset.countP_eq_zero.mpr fun other member paid => apart other member (.inr paid)
  have free : others.countP (fun other => other.stage = .owes) = 0 :=
    Multiset.countP_eq_zero.mpr fun other member => (settled other member).1
  refine ⟨not_holds_idle, apart, ?_⟩
  simp only [↓reduceIte, reduceCtorEq, unpaid, free] at balance ⊢
  omega

/-! ## Steps that do not concern the room -/

/-- The step keeps the binding of the room and leaves the run where it is. -/
def Still (room : RoomId) (phase : Phase) (op : Op) : Prop :=
  (∀ world reply after, World.exec op world reply after →
    after.redis.bindings.lookup room = world.redis.bindings.lookup room) ∧
    ∀ reply, phase.advance room op reply = phase

/-- A step that leaves the binding and the task's knowledge alone may be taken at any time. -/
theorem inert_of_still {phase : Phase} (op : Op) (still : Still room phase op) :
    (outline room).Inert phase op where
  asserts _ := trivial
  keeps := by
    intro state others reply after accounted effect
    obtain ⟨world, released⟩ := state
    obtain ⟨after, _⟩ := after
    obtain ⟨effect, -, rfl⟩ := effect
    exact Accounted.congr accounted (still.1 world reply after effect)
  still := still.2

/-- A step that touches no binding is such a step. -/
theorem still_of_unbinding {phase : Phase} {op : Op}
    (unbinding : ¬ op.IsRedis Command.WritesBindings)
    (fixed : ∀ reply, phase.advance room op reply = phase) : Still room phase op :=
  ⟨fun world reply after effect => by rw [(World.exec_keepsRedis effect).bindings unbinding], fixed⟩

/-- Deleting the binding of another room. -/
theorem still_del {phase : Phase} {roomId : RoomId} (apart : roomId ≠ room)
    (fixed : ∀ reply, phase.advance room (.redis (.del (.binding roomId))) reply = phase) :
    Still room phase (.redis (.del (.binding roomId))) := by
  refine ⟨fun world reply after effect => ?_, fixed⟩
  obtain ⟨_, redis, ⟨-, rfl⟩, -, rfl⟩ := effect
  exact Finmap.lookup_erase_ne apart.symm

/-- The run is idle again. -/
def Between (role : Role) (phase : Phase) : Prop := ∃ count, phase = ⟨role, .idle, count⟩

/-! ## The paths of a node -/

/-- The release of a slot touches no binding. -/
theorem release_still (instanceId : InstanceId) :
    (Signaling.decrementSfuRoomLoad instanceId).run.Only (Still room ⟨.signaling, .idle, count⟩) :=
  Signaling.decrementSfuRoomLoad_only (still_of_unbinding id fun _ => rfl)
    (fun _ => still_of_unbinding id fun _ => rfl) (still_of_unbinding id fun _ => rfl)
    (still_of_unbinding id fun _ => rfl) fun _ => still_of_unbinding id fun _ => rfl

/-- Who has removed the binding releases its slot once. -/
theorem pay_safe (instanceId : InstanceId) :
    (outline room).Safe (fun phase _ => Between .signaling phase) ⟨.signaling, .owes, count⟩
      (Signaling.decrementSfuRoomLoad instanceId).run := by
  refine Threads.safe_redis fun world _ others accounted _ => ⟨trivial, ?_⟩
  rintro current redis ⟨-, rfl⟩ -
  refine ⟨accounted, ?_⟩
  refine Threads.safe_redis fun world _ others accounted _ => ⟨trivial, ?_⟩
  rintro _ redis rfl -
  refine ⟨(Accounted.pay accounted).congr rfl, ?_⟩
  have rest : (if decremented current = 0 then (do
        let now ← unixNow
        updateSfuIdleSince instanceId now) else return () : RedisCall Unit).run.Only
      (Still room ⟨.signaling, .idle, count + 1⟩) := by
    split
    · refine Program.Only.except_bind (Program.Only.lift ?_) fun now =>
        updateSfuIdleSince_only ?_ fun _ => ?_
      · exact ⟨still_of_unbinding id fun _ => rfl, fun _ => trivial⟩
      · exact still_of_unbinding id fun _ => rfl
      · exact still_of_unbinding id fun _ => rfl
    · trivial
  exact (Outline.Safe.of_inert inert_of_still rest).mono fun phase _ same => ⟨count + 1, same⟩

/-- Closing the binding releases the slot at most once. -/
theorem closeRoomBinding_safe (roomId : RoomId) :
    (outline room).Safe (fun phase _ => Between .signaling phase) ⟨.signaling, .idle, count⟩
      (closeRoomBinding roomId).run := by
  by_cases same : roomId = room
  · subst same
    refine Threads.safe_redis fun world _ others accounted _ => ⟨trivial, ?_⟩
    rintro instanceId redis ⟨read, rfl⟩ -
    have advanced : (⟨.signaling, .idle, count⟩ : Phase).advance roomId
        (.redis (.hget (.binding roomId) "sfu_instance_id")) (.ok instanceId) =
          ⟨.signaling, .found instanceId, count⟩ := by
      simp only [Phase.advance, ↓reduceIte]
    simp only [threads, advanced]
    have found := accounted.find
    rw [show (world.redis.bindings.lookup roomId).bind (·.get "sfu_instance_id") = instanceId from
      read.symm] at found
    refine ⟨found, ?_⟩
    refine Threads.safe_redis fun world _ others accounted alone => ⟨trivial, ?_⟩
    rintro deleted redis ⟨rfl, rfl⟩ -
    refine ⟨Accounted.remove accounted alone, ?_⟩
    simp only [threads, Phase.advance]
    cases (world.redis.hash (.binding roomId)).isSome with
    | false => exact ⟨count, by simp⟩
    | true =>
        cases instanceId with
        | none => exact ⟨count, by simp⟩
        | some instanceId =>
            refine Outline.Safe.except_bind ((pay_safe instanceId).mono fun phase value ended => ?_)
            cases value with
            | ok value => exact ended
            | error error => exact ended
  · refine (Outline.Safe.of_inert inert_of_still (closeRoomBinding_only ?_ ?_ release_still)).mono
      fun phase _ kept => ⟨count, kept⟩
    · refine still_of_unbinding id fun reply => ?_
      cases reply with
      | error => rfl
      | ok instanceId => simp only [Phase.advance, same, ↓reduceIte]
    · exact still_del same fun _ => rfl

/-- Undoing a create releases the slot at most once. -/
theorem undoBinding_safe (roomId : RoomId) :
    (outline room).Safe (fun phase _ => Between .signaling phase) ⟨.signaling, .idle, count⟩
      (undoBinding roomId) :=
  Outline.Safe.bind ((closeRoomBinding_safe roomId).mono fun _ _ ended => ended)

/-- A step of a node that neither writes a binding nor reads an instance. -/
theorem node_still {op : Op} (unbinding : ¬ op.IsRedis Command.WritesBindings)
    (fixed : ∀ reply, (⟨.signaling, .idle, count⟩ : Phase).advance room op reply =
      ⟨.signaling, .idle, count⟩) : Still room ⟨.signaling, .idle, count⟩ op :=
  still_of_unbinding unbinding fixed

/-- Detaching the last peer releases the slot at most once. -/
theorem detachPeer_safe (state : State) (roomId : RoomId) (nickname : Nickname) (reason : String) :
    (outline room).Safe (fun phase _ => Between .signaling phase) ⟨.signaling, .idle, count⟩
      (state.detachPeer roomId nickname reason) := by
  refine Outline.Safe.bind
      ((Outline.Safe.of_inert inert_of_still (State.routeBeforeDetach_only ?_ ?_)).mono ?_)
  · exact node_still id fun _ => rfl
  · exact node_still id fun _ => rfl
  intro _ route same
  subst same
  refine Outline.Safe.inert_bind (inert_of_still _ (node_still id fun _ => rfl)) fun _ _ _ _ => ?_
  refine Outline.Safe.bind
      ((Outline.Safe.of_inert inert_of_still (State.detachMember_only ?_ ?_ ?_ ?_ ?_)).mono ?_)
  · exact node_still id fun _ => rfl
  · exact node_still id fun _ => rfl
  · exact node_still id fun _ => rfl
  · exact node_still id fun _ => rfl
  · exact node_still id fun _ => rfl
  intro _ roomEmpty same
  subst same
  refine Outline.Safe.bind
      ((Outline.Safe.of_inert inert_of_still (State.detachFromSfu_only ?_)).mono ?_)
  · exact fun _ => node_still id fun _ => rfl
  intro _ _ same
  subst same
  cases roomEmpty with
  | false => exact ⟨count, rfl⟩
  | true => exact undoBinding_safe roomId

/-- Closing a room releases the slot at most once. -/
theorem closeRoom_safe (state : State) (roomId : RoomId) (participants : List Nickname)
    (reason : String) :
    (outline room).Safe (fun phase _ => Between .signaling phase) ⟨.signaling, .idle, count⟩
      (state.closeRoom roomId participants reason) := by
  have unregister (names : List Nickname) : (names.forM (state.unregister roomId)).Only
      (Still room ⟨.signaling, .idle, count⟩) :=
    Program.Only.forM fun name _ => ⟨node_still id fun _ => rfl, fun _ => trivial⟩
  refine Outline.Safe.bind
      ((Outline.Safe.of_inert inert_of_still (State.broadcastToRoom_only ?_ ?_)).mono ?_)
  · exact node_still id fun _ => rfl
  · exact fun _ => node_still id fun _ => rfl
  intro _ stale same
  subst same
  refine Outline.Safe.bind
      ((Outline.Safe.of_inert inert_of_still (unregister participants)).mono ?_)
  intro _ _ same
  subst same
  refine Outline.Safe.bind ((Outline.Safe.of_inert inert_of_still (unregister stale)).mono ?_)
  intro _ _ same
  subst same
  refine Outline.Safe.inert_bind (inert_of_still _ (node_still id fun _ => rfl)) ?_
  intro _ affected _ _
  refine Outline.Safe.bind
      ((Outline.Safe.of_inert inert_of_still (State.isRedisAvailable_only ?_)).mono ?_)
  · exact node_still id fun _ => rfl
  intro _ available same
  subst same
  cases available with
  | false => exact ⟨count, rfl⟩
  | true =>
      refine Outline.Safe.bind ((closeRoomBinding_safe roomId).mono ?_)
      intro phase _ ended
      obtain ⟨count, rfl⟩ := ended
      have rest : (do
          let _ ← (deleteRoom roomId).run
          affected.forM State.clearRedisRoom : Call Unit).Only
          (Still room ⟨.signaling, .idle, count⟩) := by
        refine Program.Only.bind (redisCommand_drop_only (node_still id fun _ => rfl)) fun _ => ?_
        refine Program.Only.forM fun sessionId _ => ?_
        exact Program.Only.bind (redisCommand_only (node_still id fun _ => rfl)) fun _ => trivial
      exact (Outline.Safe.of_inert inert_of_still rest).mono fun phase _ same => ⟨count, same⟩

/-- Closing the rooms of an SFU releases each slot at most once. -/
theorem closeRoomsDueToSfuAddr_safe (state : State) (sfuAddr : Address) (reason : String) :
    (outline room).Safe (fun phase _ => Between .signaling phase) ⟨.signaling, .idle, count⟩
      (state.closeRoomsDueToSfuAddr sfuAddr reason) := by
  refine Outline.Safe.inert (inert_of_still _ (node_still id fun _ => rfl)) fun _ rooms _ _ => ?_
  refine Outline.Safe.forM ?_ ⟨count, rfl⟩
  intro listed _ phase between
  obtain ⟨count, rfl⟩ := between
  refine Outline.Safe.bind
      (Outline.Safe.mono ?_ (Outline.Safe.of_inert inert_of_still
      (getRoomRoute_only (node_still id fun _ => rfl))))
  intro _ route same
  subst same
  cases route with
  | error error => exact ⟨count, rfl⟩
  | ok route =>
      change (outline room).Safe _ _ (if route.sfuGrpcAddr = some sfuAddr then
        state.closeRoom listed.1 listed.2 reason else return ())
      split
      · exact closeRoom_safe state listed.1 listed.2 reason
      · exact ⟨count, rfl⟩

/-! ## The paths of the supervisor -/

/-- A step of the supervisor that writes no binding and claims none. -/
theorem supervisor_still {op : Op} (unbinding : ¬ op.IsRedis Command.WritesBindings)
    (fixed : ∀ reply, (⟨.supervisor reclaims, .idle, count⟩ : Phase).advance room op reply =
      ⟨.supervisor reclaims, .idle, count⟩) :
    Still room ⟨.supervisor reclaims, .idle, count⟩ op :=
  still_of_unbinding unbinding fixed

/-- Reclaiming another room. -/
theorem reclaimRoom_still {roomId : RoomId} (apart : roomId ≠ room) (binding : RoomBinding) :
    (reclaimRoom roomId binding).Only (Still room ⟨.supervisor reclaims, .idle, count⟩) := by
  refine Program.Only.bind ?_ fun _ => Program.Only.bind ?_ fun _ => ?_
  · cases binding.sfuInstanceId with
    | none => trivial
    | some instanceId =>
        refine logged_only (Supervisor.decrementSfuRoomLoad_only ?_ ?_ ?_ ?_ ?_)
        · exact supervisor_still id fun _ => rfl
        · exact fun _ => supervisor_still id fun _ => rfl
        · exact supervisor_still id fun _ => rfl
        · exact supervisor_still id fun _ => rfl
        · exact fun _ _ => supervisor_still id fun _ => rfl
  · exact logged_only (redisCommand_drop_only (still_del apart fun _ => rfl))
  · exact logged_only (redisCommand_drop_only (supervisor_still id fun _ => rfl))

/-- Reclaiming the room after its binding has been read. -/
theorem reclaimRoom_safe {binding : RoomBinding} {instanceId : InstanceId}
    (named : binding.sfuInstanceId = some instanceId) :
    (outline room).Safe (fun phase _ => Between (.supervisor reclaims) phase)
      ⟨.supervisor reclaims, .claims, count⟩ (reclaimRoom room binding) := by
  have paying : (outline room).Safe
      (fun phase _ => phase = ⟨.supervisor reclaims, .paid, count + 1⟩)
      ⟨.supervisor reclaims, .claims, count⟩
      (Supervisor.decrementSfuRoomLoad instanceId).run := by
    refine Threads.safe_redis fun world _ others accounted _ => ⟨trivial, ?_⟩
    rintro current redis ⟨-, rfl⟩ -
    refine ⟨accounted, ?_⟩
    refine Threads.safe_redis fun world _ others accounted _ => ⟨trivial, ?_⟩
    rintro _ redis rfl -
    refine ⟨(Accounted.settle accounted).congr rfl, ?_⟩
    refine Outline.Safe.of_inert inert_of_still ?_
    split
    · refine Program.Only.except_bind (Program.Only.lift ?_) fun now =>
        updateIdleSince_only ?_ fun _ _ => ?_
      · exact ⟨still_of_unbinding id fun _ => rfl, fun _ => trivial⟩
      · exact still_of_unbinding id fun _ => rfl
      · exact still_of_unbinding id fun _ => rfl
    · trivial
  unfold reclaimRoom
  rw [named]
  refine Outline.Safe.bind (Outline.Safe.bind (paying.mono fun phase _ same => ?_))
  subst same
  refine Outline.Safe.bind (Outline.Safe.bind ?_)
  refine Threads.safe_redis fun world _ others accounted _ => ⟨trivial, ?_⟩
  rintro deleted redis ⟨-, rfl⟩ -
  refine ⟨Accounted.drop accounted, ?_⟩
  have rest : (logged (deleteSignalingRoomMembers room)).Only
      (Still room ⟨.supervisor reclaims, .idle, count + 1⟩) :=
    logged_only (redisCommand_drop_only (supervisor_still id fun _ => rfl))
  exact (Outline.Safe.of_inert inert_of_still rest).mono fun phase _ same => ⟨count + 1, same⟩

/-- The binding read while the room is bound names an instance. -/
theorem instance_of_bound (bound : Bound room world) {binding : RoomBinding}
    (read : binding ∈ RoomBinding.ofFields room
      (((world.redis.hash (.binding room)).map Hash.fields).getD ∅)) :
    ∃ instanceId, binding.sfuInstanceId = some instanceId := by
  obtain ⟨hash, instanceId, found, named, filled⟩ := bound
  simp only [Redis.hash, found, Option.map_some, Option.getD_some, RoomBinding.ofFields,
    hash.nonempty, ↓reduceIte, Option.mem_def, Option.some.injEq] at read
  subst read
  refine ⟨instanceId, ?_⟩
  rw [show hash.fields.lookup "sfu_instance_id" = some instanceId from named]
  simp [Option.filter, filled]

/-- Reading a binding claims the room exactly when the run goes on to reclaim it. -/
theorem getRoomAssignment_safe {roomId : RoomId}
    {post : Phase → Except Failure (Option RoomBinding) → Prop}
    (passed : ∀ found : Option RoomBinding,
      (∀ binding ∈ found, reclaims binding = true → roomId ≠ room) →
        post ⟨.supervisor reclaims, .idle, count⟩ (.ok found))
    (claimed : ∀ binding instanceId, roomId = room → reclaims binding = true →
      binding.sfuInstanceId = some instanceId →
        post ⟨.supervisor reclaims, .claims, count⟩ (.ok (some binding))) :
    (outline room).Safe post ⟨.supervisor reclaims, .idle, count⟩
      (getRoomAssignment roomId).run := by
  refine Threads.safe_redis fun world _ others accounted alone => ⟨trivial, ?_⟩
  rintro values redis ⟨read, rfl⟩ -
  by_cases ours : roomId = room ∧ Phase.Reclaims room reclaims values
  · obtain ⟨same, binding, found, wanted⟩ := ours
    subst same
    have advanced : (⟨.supervisor reclaims, .idle, count⟩ : Phase).advance roomId
        (.redis (.hgetall (.binding roomId))) (.ok values) =
          ⟨.supervisor reclaims, .claims, count⟩ := by
      simp only [Phase.advance, true_and]
      rw [if_pos ⟨binding, found, wanted⟩]
    have present : ¬ Gone roomId world := by
      intro absent
      rw [read, Redis.hash, show world.redis.bindings.lookup roomId = none from absent] at found
      cases found
    rw [read] at found
    obtain ⟨instanceId, named⟩ :=
      instance_of_bound (accounted.bound present).1 found
    simp only [threads, advanced]
    constructor
    · refine Accounted.claim accounted present (alone rfl ?_)
      obtain ⟨hash, bound⟩ := Option.ne_none_iff_exists'.mp present
      refine ⟨hash, bound, binding, ?_, wanted⟩
      simpa only [Redis.hash, bound, Option.map_some, Option.getD_some] using found
    · have result : RoomBinding.ofFields roomId values = some binding := read ▸ found
      change post _ (.ok (RoomBinding.ofFields roomId values))
      rw [result]
      exact claimed binding instanceId rfl wanted named
  · have advanced : (⟨.supervisor reclaims, .idle, count⟩ : Phase).advance room
        (.redis (.hgetall (.binding roomId))) (.ok values) =
          ⟨.supervisor reclaims, .idle, count⟩ := by
      simp only [Phase.advance]
      rw [if_neg ours]
    simp only [threads, advanced]
    refine ⟨accounted, passed _ fun binding found wanted same => ?_⟩
    subst same
    exact ours ⟨rfl, binding, found, wanted⟩

/-- The supervisor releases the slot of a room on a dead SFU at most once. -/
theorem closeDeadSfuRoom_safe (config : Supervisor.Config) (sfuGrpcAddr : Address)
    (roomId : RoomId) :
    (outline room).Safe (fun phase _ => Between (.supervisor (Phase.onSfu sfuGrpcAddr)) phase)
      ⟨.supervisor (Phase.onSfu sfuGrpcAddr), .idle, count⟩
      (closeDeadSfuRoom config sfuGrpcAddr roomId) := by
  refine Outline.Safe.bind (getRoomAssignment_safe (fun found apart => ?_) ?_)
  · cases found with
    | none => exact ⟨count, rfl⟩
    | some binding =>
        change (outline room).Safe _ _ (if binding.sfuGrpcAddr ≠ some sfuGrpcAddr then return ()
          else _)
        split
        · exact ⟨count, rfl⟩
        · rename_i hosted
          have other := apart binding rfl (decide_eq_true (not_not.mp hosted))
          have rest : (do
              notifyOwner config binding.ownerId sfuGrpcAddr
              reclaimRoom roomId binding : Call Unit).Only
              (Still room ⟨.supervisor (Phase.onSfu sfuGrpcAddr), .idle, count⟩) :=
            Program.Only.bind (notifyOwner_only fun _ => supervisor_still id fun _ => rfl) fun _ =>
              reclaimRoom_still other binding
          exact (Outline.Safe.of_inert inert_of_still rest).mono fun phase _ same => ⟨count, same⟩
  · intro binding instanceId same wanted named
    subst same
    have hosted : binding.sfuGrpcAddr = some sfuGrpcAddr := of_decide_eq_true wanted
    change (outline roomId).Safe _ _ (if binding.sfuGrpcAddr ≠ some sfuGrpcAddr then return ()
      else _)
    rw [if_neg (not_not.mpr hosted)]
    refine Outline.Safe.bind
        ((Outline.Safe.of_inert inert_of_still (notifyOwner_only fun _ => ?_)).mono ?_)
    · exact still_of_unbinding id fun _ => rfl
    · intro _ _ same
      subst same
      exact reclaimRoom_safe named

/-- Handling a dead SFU releases each slot at most once. -/
theorem handleDeadSfu_safe (config : Supervisor.Config) (sfuGrpcAddr : Address) :
    (outline room).Safe (fun phase _ => Between (.supervisor (Phase.onSfu sfuGrpcAddr)) phase)
      ⟨.supervisor (Phase.onSfu sfuGrpcAddr), .idle, count⟩
      (handleDeadSfu config sfuGrpcAddr) := by
  refine Outline.Safe.bind ((Outline.Safe.of_inert inert_of_still (scanFrom_only ?_ ?_)).mono ?_)
  · exact fun _ => supervisor_still id fun _ => rfl
  · exact supervisor_still id fun _ => rfl
  intro _ bindingIds same
  subst same
  cases bindingIds with
  | error error => exact ⟨count, rfl⟩
  | ok bindingIds =>
      refine Outline.Safe.forM (fun roomId _ phase between => ?_) ⟨count, rfl⟩
      obtain ⟨count, rfl⟩ := between
      exact closeDeadSfuRoom_safe config sfuGrpcAddr roomId

/-- The janitor releases the slot of a stale room at most once. -/
theorem reclaimIfStale_safe (alive : List NodeId) (roomId : RoomId) :
    (outline room).Safe (fun phase _ => Between (.supervisor (Phase.orphaned alive)) phase)
      ⟨.supervisor (Phase.orphaned alive), .idle, count⟩ (reclaimIfStale alive roomId).run := by
  refine Outline.Safe.except_bind (getRoomAssignment_safe (fun found apart => ?_) ?_)
  · cases found with
    | none => exact ⟨count, rfl⟩
    | some binding =>
        change (outline room).Safe _ _ (if binding.ownerId = "" ∨ binding.ownerId ∈ alive then
          return () else _ : StoreCall Unit).run
        split
        · exact ⟨count, rfl⟩
        · rename_i stale
          have other := apart binding rfl (decide_eq_true (not_or.mp stale))
          refine Outline.Safe.lift
            ((Outline.Safe.of_inert inert_of_still (reclaimRoom_still other binding)).mono ?_)
          exact fun phase _ same => ⟨count, same⟩
  · intro binding instanceId same wanted named
    subst same
    have stale : binding.ownerId ≠ "" ∧ binding.ownerId ∉ alive := of_decide_eq_true wanted
    change (outline roomId).Safe _ _ (if binding.ownerId = "" ∨ binding.ownerId ∈ alive then
      return () else _ : StoreCall Unit).run
    rw [if_neg (not_or.mpr stale)]
    exact Outline.Safe.lift ((reclaimRoom_safe named).mono fun _ _ ended => ended)

/-- What the janitor does after the rooms of stale owners. -/
theorem janitorRest_still (config : Supervisor.Config) (alive : List NodeId)
    (bindingIds : List RoomId) (now : ℤ) :
    (do
      let signalingRoomIds ← scanSignalingRoomIds config.loopBound
      signalingRoomIds.forM (deleteIfOrphan bindingIds)
      let loadMembers ← signalingLoadMembers
      loadMembers.forM (removeLoadIfStale alive)
      let sessionIds ← scanSignalingSessionIds config.loopBound
      sessionIds.forM (deleteSessionIfStale alive)
      logged (removeSignalingNodeHeartbeatsBelow (now - config.signalingStaleTimeoutSecs)) :
      StoreCall Unit).run.Only (Still room ⟨.supervisor reclaims, .idle, count⟩) := by
  refine (scanFrom_only (fun _ => ?_) ?_).except_bind fun roomIds => ?_
  · exact supervisor_still id fun _ => rfl
  · exact supervisor_still id fun _ => rfl
  refine Program.Only.except_bind (Program.Only.except_forM fun roomId _ => ?_) fun _ => ?_
  · exact deleteIfOrphan_only (supervisor_still id fun _ => rfl)
  refine Program.Only.except_bind ((redisCommand_only ?_).except_bind fun _ => trivial)
    fun loadMembers => ?_
  · exact supervisor_still id fun _ => rfl
  refine Program.Only.except_bind (Program.Only.except_forM fun nodeId _ => ?_) fun _ => ?_
  · exact removeLoadIfStale_only (supervisor_still id fun _ => rfl)
  refine (scanFrom_only (fun _ => ?_) ?_).except_bind fun sessionIds => ?_
  · exact supervisor_still id fun _ => rfl
  · exact supervisor_still id fun _ => rfl
  refine Program.Only.except_bind (Program.Only.except_forM fun sessionId _ => ?_) fun _ => ?_
  · exact deleteSessionIfStale_only (supervisor_still id fun _ => rfl)
      (supervisor_still id fun _ => rfl)
  exact Program.Only.lift (logged_only (redisCommand_only (supervisor_still id fun _ => rfl)))

/-- An iteration of the janitor releases each slot at most once. -/
theorem runJanitorIteration_safe (config : Supervisor.Config) :
    (outline room).Safe (fun phase _ => ∃ role, Between role phase) ⟨.janitor, .idle, count⟩
      (runJanitorIteration config).run := by
  have still {op : Op} (unbinding : ¬ op.IsRedis Command.WritesBindings)
      (fixed : ∀ reply, (⟨.janitor, .idle, count⟩ : Phase).advance room op reply =
        ⟨.janitor, .idle, count⟩) : Still room ⟨.janitor, .idle, count⟩ op :=
    still_of_unbinding unbinding fixed
  have reading : (outline room).Safe
      (fun phase value => ∃ alive, value = .ok alive ∧
        phase = ⟨.supervisor (Phase.orphaned alive), .idle, count⟩)
      ⟨.janitor, .idle, count⟩ (aliveSignalingNodes config.signalingStaleTimeoutSecs).run := by
    refine Outline.Safe.inert (inert_of_still _ (still id fun _ => rfl)) fun _ now _ _ => ?_
    refine Threads.safe_redis_last fun world _ others accounted _ => ⟨trivial, ?_⟩
    rintro alive redis ⟨-, rfl⟩ -
    exact ⟨Accounted.idle accounted, alive, rfl, rfl⟩
  refine Outline.Safe.except_bind (reading.mono fun phase value read => ?_)
  obtain ⟨alive, returned, same⟩ := read
  subst returned
  subst same
  refine Outline.Safe.except_bind (Outline.Safe.lift ?_)
  refine Outline.Safe.inert (inert_of_still _ (supervisor_still id fun _ => rfl))
    fun _ now _ _ => ?_
  refine Outline.Safe.except_bind
      ((Outline.Safe.of_inert inert_of_still (scanFrom_only ?_ ?_)).mono ?_)
  · exact fun _ => supervisor_still id fun _ => rfl
  · exact supervisor_still id fun _ => rfl
  intro _ scanned same
  subst same
  cases scanned with
  | error error => exact ⟨_, count, rfl⟩
  | ok bindingIds =>
      have loop : (outline room).Safe
          (fun phase _ => Between (.supervisor (Phase.orphaned alive)) phase)
          ⟨.supervisor (Phase.orphaned alive), .idle, count⟩
          (bindingIds.forM (reclaimIfStale alive)).run := by
        refine Outline.Safe.except_forM (fun roomId _ phase between => ?_) ⟨count, rfl⟩
        obtain ⟨count, rfl⟩ := between
        exact reclaimIfStale_safe alive roomId
      refine Outline.Safe.except_bind (loop.mono fun phase value between => ?_)
      obtain ⟨count, rfl⟩ := between
      cases value with
      | error error => exact ⟨_, count, rfl⟩
      | ok value =>
          refine (Outline.Safe.of_inert inert_of_still
            (janitorRest_still config alive bindingIds now)).mono ?_
          exact fun phase _ same => ⟨_, count, same⟩

/-! ## Runs -/

/-- An idle run may end; its decrements stay counted. -/
theorem mayFinish {phase : Phase} (between : Between role phase) :
    (outline room).MayFinish phase () := by
  obtain ⟨count, rfl⟩ := between
  intro (state : World × ℕ) others accounted
  obtain ⟨world, released⟩ := state
  obtain ⟨bound, gone⟩ := accounted_cons.mp accounted
  constructor
  · intro present
    obtain ⟨named, -, settled, single, balance⟩ := bound present
    refine ⟨named, settled, by simpa using single, ?_⟩
    change released + count + _ = _
    simpa [add_assoc] using balance
  · intro absent
    obtain ⟨-, apart, balance⟩ := gone absent
    refine ⟨apart, ?_⟩
    change released + count + _ + _ = 1
    simpa [add_assoc] using balance

/-- A run that starts has not touched the room. -/
theorem Accounted.start (accounted : Accounted room (world, released) others) :
    Accounted room (world, released) (⟨role, .idle, 0⟩ ::ₘ others) := by
  rw [accounted_cons]
  obtain ⟨bound, gone⟩ := accounted
  constructor
  · intro present
    obtain ⟨named, settled, single, balance⟩ := bound present
    exact ⟨named, by simp, settled, by simpa using single, by simpa using balance⟩
  · intro absent
    obtain ⟨apart, balance⟩ := gone absent
    exact ⟨by simp, apart, by simpa using balance⟩

/-- What happens besides keeps the invariant. -/
theorem stable : (outline room).Stable where
  start := by
    intro before others phase program after started accounted
    obtain ⟨world, released⟩ := before
    obtain ⟨rfl, programs⟩ := started
    have kept (role : Role) : Accounted room (world, released) (⟨role, .idle, 0⟩ ::ₘ others) :=
      Accounted.start accounted
    rcases programs with ⟨state, roomId, nickname, reason, rfl, rfl⟩ |
      ⟨state, sfuAddr, reason, rfl, rfl⟩ | ⟨roomId, rfl, rfl⟩ | ⟨config, sfuGrpcAddr, rfl, rfl⟩ |
      ⟨config, rfl, rfl⟩
    · exact ⟨kept _, (detachPeer_safe state roomId nickname reason).mono
        fun _ _ ended => mayFinish ended⟩
    · exact ⟨kept _, (closeRoomsDueToSfuAddr_safe state sfuAddr reason).mono
        fun _ _ ended => mayFinish ended⟩
    · exact ⟨kept _, (undoBinding_safe roomId).mono fun _ _ ended => mayFinish ended⟩
    · exact ⟨kept _, (handleDeadSfu_safe config sfuGrpcAddr).mono
        fun _ _ ended => mayFinish ended⟩
    · refine ⟨kept _, Outline.Safe.bind ((runJanitorIteration_safe config).mono ?_)⟩
      intro phase _ ended
      obtain ⟨role, between⟩ := ended
      exact mayFinish between
  discard _ _ _ never := never.elim
  environment := by
    intro before others after changed accounted
    obtain ⟨world, released⟩ := before
    obtain ⟨after, counted⟩ := after
    obtain ⟨same, rfl⟩ := changed
    exact Accounted.congr accounted same

/-- The account when no run is in progress. -/
theorem accounted_zero : Accounted room (world, released) 0 ↔
    (¬ Gone room world → Bound room world ∧ released = 0) ∧ (Gone room world → released = 1) := by
  constructor
  · intro ⟨bound, gone⟩
    exact ⟨fun present => ⟨(bound present).1, by simpa using (bound present).2.2.2⟩,
      fun absent => by simpa using (gone absent).2⟩
  · intro ⟨bound, gone⟩
    refine ⟨fun present => ?_, fun absent => ?_⟩
    · obtain ⟨named, unreleased⟩ := bound present
      exact ⟨named, by simp, by simp, by simpa using unreleased⟩
    · exact ⟨by simp, by simpa using gone absent⟩

/-- No run is in progress and no decrement is counted. -/
def begin (room : RoomId) (world : World) : (threads room).system.Pool := ⟨(world, (0 : ℕ)), []⟩

/-- The decrements that finished runs have performed on account of the room. -/
def decrements (pool : (threads room).system.Pool) : ℕ := pool.state.2

/-- **The slot of a room is released exactly once**, in every run in which no
teardown path meets the supervisor's between its read and its `DEL`. -/
theorem released_once {world : World} (bound : Bound room world)
    {pool : (threads room).system.Pool} (run : Reaches (guard room) (begin room world) pool)
    (quiescent : pool.Quiescent) (gone : Gone room pool.state.1) : decrements pool = 1 := by
  have initial : (outline room).Holds (begin room world) := by
    refine .of_quiescent (accounted_zero.mpr ⟨fun _ => ⟨bound, rfl⟩, fun absent => ?_⟩)
    obtain ⟨hash, _, found, _⟩ := bound
    cases absent.symm.trans found
  exact (accounted_zero.mp ((initial.reaches stable run).quiescent quiescent)).2 gone

/-! ## A dead SFU with a live room -/

instance (world : World) (op : Op) (reply : op.Reply) :
    Decidable ((threads room).assumed world op reply) := inferInstanceAs (Decidable True)

/-- A room of one participant, hosted by an SFU. -/
def hosted : World :=
  (World.fresh.assignTo "room-1").setNode sampleNode.node
    { peers := Finmap.singleton ("room-1", "alice") ⟨0, some sampleSfu.grpcAddr⟩
      sessions := ⟨∅, ∅⟩ }

/-- The sample room is bound. -/
theorem bound_hosted : Bound "room-1" hosted :=
  ⟨Redis.newBinding "127.0.0.1" "8080" "127.0.0.1:8080" sampleSfu, "sfu-1", rfl, rfl, by decide⟩

/-- The supervisor handles the dead SFU while the node closes the rooms of it. -/
def teardowns : List (threads "room-1").system.Thread :=
  [⟨⟨.supervisor (Phase.onSfu sampleSfu.grpcAddr), .idle, 0⟩,
      handleDeadSfu ⟨[⟨"127.0.0.1:8080", "http://127.0.0.1:9090"⟩], 30, 2⟩ sampleSfu.grpcAddr⟩,
    ⟨⟨.signaling, .idle, 0⟩, sampleNode.closeRoomsDueToSfuAddr sampleSfu.grpcAddr "sfu_down"⟩]

/-- Two teardowns of the sample room may start. -/
theorem reaches_teardowns {guard : (threads "room-1").system.Guard} :
    Reaches guard (begin "room-1" hosted) ⟨(hosted, (0 : ℕ)), teardowns⟩ := by
  refine reaches_start fun thread member others => ?_
  rcases List.mem_pair.mp member with rfl | rfl
  · exact ⟨rfl, .inr (.inr (.inr (.inl ⟨_, _, rfl, rfl⟩)))⟩
  · exact ⟨rfl, .inr (.inl ⟨_, _, _, rfl, rfl⟩)⟩

/-- The test of `Allowed`. -/
def allows (room : RoomId) (world : World) : Phase → Op → Multiset Phase → Bool
  | ⟨.supervisor reclaims, .idle, _⟩, .redis (.hgetall (.binding roomId)), others =>
      decide (roomId = room →
        (∃ hash ∈ world.redis.bindings.lookup room, Phase.Reclaims room reclaims hash.fields) →
        Phase.Apart others)
  | ⟨.signaling, .found _, _⟩, .redis (.del (.binding _)), others =>
      decide (¬ Gone room world → Phase.Apart others)
  | _, _, _ => true

/-- The test computes the condition. -/
theorem allows_iff {world : World} {phase : Phase} {op : Op} {others : Multiset Phase} :
    allows room world phase op others = true ↔ Allowed room world phase op others := by
  unfold allows Allowed
  split
  · exact decide_eq_true_iff
  · exact decide_eq_true_iff
  · simp

instance decidableAllowed (world : World) (phase : Phase) (op : Op) (others : Multiset Phase) :
    Decidable (Allowed room world phase op others) :=
  decidable_of_iff _ allows_iff

instance : ∀ state phase op others, Decidable (guard room state phase op others) :=
  fun state phase op others => decidableAllowed state.1 phase op others

/-- The steps of the close task. -/
def closing (position : ℕ) : List (ℕ × Hint) :=
  (position, { rooms := [("room-1", ["alice"])] }) :: (position, {}) ::
    (position, { names := ["alice"] }) :: turns position 13

/-- The node closes the room before the supervisor reads its binding. -/
def apartFrom : List (ℕ × Hint) := (0, { names := ["room-1"] }) :: (closing 1 ++ turns 0 2)

/-- The slot is released once when the two paths do not meet. -/
theorem released_once_apart : ∃ pool : (threads "room-1").system.Pool,
    Reaches (guard "room-1") (begin "room-1" hosted) pool ∧ pool.Quiescent ∧
      Gone "room-1" pool.state.1 ∧ decrements pool = 1 := by
  have replayed : ((threads "room-1").sampler.replay (guard "room-1") apartFrom
      ⟨(hosted, (0 : ℕ)), teardowns⟩).any
      (fun pool => pool.threads.isEmpty ∧ Gone "room-1" pool.state.1) = true := by
    decide +kernel
  obtain ⟨pool, run, passed⟩ := Sampler.exists_of_replay replayed
  obtain ⟨quiescent, gone⟩ := of_decide_eq_true passed
  have quiescent := List.isEmpty_iff.mp quiescent
  exact ⟨pool, reaches_teardowns.trans run, quiescent, gone,
    released_once bound_hosted (reaches_teardowns.trans run) quiescent gone⟩

/-- The supervisor reads the binding, the node closes the room, and the supervisor
goes on. -/
def doubleRelease : List (ℕ × Hint) :=
  (0, { names := ["room-1"] }) :: (0, {}) :: (0, {}) :: (closing 1 ++ turns 0 8)

/-- **A slot is released twice**: the supervisor releases the slot of a room that
the node it has notified has closed and released in the meantime. -/
theorem double_release : Bound "room-1" hosted ∧ ∃ pool : (threads "room-1").system.Pool,
    Reaches unguarded (begin "room-1" hosted) pool ∧ pool.Quiescent ∧
      Gone "room-1" pool.state.1 ∧ decrements pool = 2 := by
  refine ⟨bound_hosted, ?_⟩
  have replayed : ((threads "room-1").sampler.replay unguarded doubleRelease
      ⟨(hosted, (0 : ℕ)), teardowns⟩).any
      (fun pool => pool.threads.isEmpty ∧ Gone "room-1" pool.state.1 ∧ decrements pool = 2) =
        true := by
    decide +kernel
  obtain ⟨pool, run, passed⟩ := Sampler.exists_of_replay replayed
  obtain ⟨quiescent, gone, twice⟩ := of_decide_eq_true passed
  exact ⟨pool, reaches_teardowns.trans run, List.isEmpty_iff.mp quiescent, gone, twice⟩

end Callifornia.SlotRelease
