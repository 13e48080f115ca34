import Callifornia.Replay
import Callifornia.Signaling.Footprint

/-! # Joining and leaving one room at once

Any number of participants join a room and leave it again. A join looks whether
the binding exists before it adds its member, and a leave counts the members
before it deletes the binding; a member may be added after the count, or removed
again by its own join after another member has counted it.
-/

namespace Callifornia.Membership

open Concurrency Concurrency.System FiniteMap Store Signaling

/-- How far a run is. -/
inductive Stage
  /-- A join that is not a member, before or after it was one. -/
  | joining
  /-- A join that is a member. -/
  | added
  /-- A join whose peer the SFU refused. -/
  | refused
  /-- A leave that is still a member. -/
  | leaving
  /-- A leave that is no member and has not counted the members left. -/
  | removed
  /-- A leave that found no member left and has not deleted the binding. -/
  | closing
  | done
  deriving DecidableEq

/-- The participant is a member of the room. -/
def Stage.Member (stage : Stage) : Prop := stage = .added ∨ stage = .refused ∨ stage = .leaving

structure Phase where
  nickname : Nickname
  stage : Stage
  deriving DecidableEq

def Phase.advance : Phase → (op : Op) → op.Reply → Phase
  | ⟨nickname, .joining⟩, .redis (.sadd ..), _ => ⟨nickname, .added⟩
  | ⟨nickname, .added⟩, .createPeer .., .ok response =>
      ⟨nickname, if response.success then .added else .refused⟩
  | ⟨nickname, .refused⟩, .redis (.srem ..), _ => ⟨nickname, .joining⟩
  | ⟨nickname, .leaving⟩, .redis (.srem ..), _ => ⟨nickname, .removed⟩
  | ⟨nickname, .removed⟩, .redis (.scard _), .ok remaining =>
      ⟨nickname, if remaining = 0 then .closing else .done⟩
  | ⟨nickname, .closing⟩, .redis (.del (.binding _)), _ => ⟨nickname, .done⟩
  | phase, _, _ => phase

/-- The part of a join between its checks and its answer; whether it succeeded. -/
def joinRun (state : State) (sfuAddr : Address) (roomId : RoomId) (nickname : Nickname) :
    Call Bool := do
  let result ← (enterRoom state sfuAddr roomId nickname).run
  return result.toBool

/-- The detach of a member. -/
def leaveRun (state : State) (roomId : RoomId) (nickname : Nickname) (reason : String) :
    Call Bool := do
  state.detachPeer roomId nickname reason
  return false

/-- No participant with this nickname is in the room, joins it or leaves it. -/
def Free (inside : Finset Nickname) (phases : Multiset Phase) (nickname : Nickname) : Prop :=
  nickname ∉ inside ∧ nickname ∉ phases.map Phase.nickname

/-- Joins of nicknames nobody else uses and leaves of those inside, with the set of
those whose join succeeded and who have not left since. -/
def threads (room : RoomId) : Threads where
  Phase := Phase
  Ghost := Finset Nickname
  Result := Bool
  advance := Phase.advance
  start before phases phase program after := after.1 = before.1 ∧
    ((∃ state sfuAddr, Free before.2 phases phase.nickname ∧ phase.stage = .joining ∧
        program = joinRun state sfuAddr room phase.nickname ∧ after.2 = before.2) ∨
      ∃ state reason, phase.nickname ∈ before.2 ∧ phase.stage = .leaving ∧
        program = leaveRun state room phase.nickname reason ∧
        after.2 = before.2.erase phase.nickname)
  finish state phase joined :=
    (state.1, if joined then insert phase.nickname state.2 else state.2)
  environment before _ after := after.2 = before.2 ∧
    after.1.redis.bindings.lookup room = before.1.redis.bindings.lookup room ∧
    ∀ nickname, (room, nickname) ∈ after.1.redis.members ↔
      (room, nickname) ∈ before.1.redis.members

/-- The binding of the room exists. -/
def Bound (room : RoomId) (world : World) : Prop := (world.redis.bindings.lookup room).isSome

instance (room : RoomId) (world : World) : Decidable (Bound room world) :=
  inferInstanceAs (Decidable (_ = _))

/-- The room has a member. -/
def Occupied (room : RoomId) (world : World) : Prop := (world.redis.roomMembers room).Nonempty

instance (room : RoomId) (world : World) : Decidable (Occupied room world) :=
  inferInstanceAs (Decidable (Finset.Nonempty _))

/-- A member is added only while the binding exists and no leave that found the
room empty is about to delete it; a join that fails removes its member only if
that leaves another one, or a leave that has yet to count them. -/
def Allowed (room : RoomId) (world : World) : Phase → Op → Multiset Phase → Prop
  | ⟨_, .joining⟩, .redis (.sadd ..), others =>
      Bound room world ∧ ∀ other ∈ others, other.stage ≠ .closing
  | ⟨nickname, .refused⟩, .redis (.srem ..), others =>
      ((world.redis.roomMembers room).erase nickname).Nonempty ∨
        ∃ other ∈ others, other.stage = .removed
  | _, _, _ => True

def guard (room : RoomId) : (threads room).system.Guard :=
  fun state phase op others => Allowed room state.1 phase op others

/-- How the binding, the members and the runs in progress fit together. -/
structure Consistent (room : RoomId) (state : World × Finset Nickname)
    (phases : Multiset Phase) : Prop where
  distinct : (phases.map Phase.nickname).Nodup
  outside : ∀ phase ∈ phases, phase.nickname ∉ state.2
  members : ∀ nickname, (room, nickname) ∈ state.1.redis.members ↔
    nickname ∈ state.2 ∨ ∃ phase ∈ phases, phase.nickname = nickname ∧ phase.stage.Member
  bound : Occupied room state.1 → Bound room state.1
  empty : (∃ phase ∈ phases, phase.stage = .closing) → ¬ Occupied room state.1
  kept : Bound room state.1 → Occupied room state.1 ∨
    ∃ phase ∈ phases, phase.stage = .removed ∨ phase.stage = .closing

def outline (room : RoomId) : Outline (threads room).system where
  guard := guard room
  inv := Consistent room
  asserts _ _ _ := True

variable {room : RoomId} {world after : World} {inside : Finset Nickname}
  {others : Multiset Phase} {nickname : Nickname} {stage next : Stage}

@[simp] theorem occupied_iff : Occupied room world ↔
    ∃ nickname, (room, nickname) ∈ world.redis.members := by
  simp only [Occupied, Finset.Nonempty, Redis.mem_roomMembers]

/-! ## Each step keeps the room consistent -/

/-- Consistency looks only at the binding and the members of the room. -/
theorem Consistent.congr {phases : Multiset Phase}
    (consistent : Consistent room (world, inside) phases)
    (bindings : after.redis.bindings.lookup room = world.redis.bindings.lookup room)
    (members : ∀ nickname, (room, nickname) ∈ after.redis.members ↔
      (room, nickname) ∈ world.redis.members) :
    Consistent room (after, inside) phases := by
  have occupied : Occupied room after ↔ Occupied room world := by simp [members]
  have bound : Bound room after ↔ Bound room world := by rw [Bound, Bound, bindings]
  exact ⟨consistent.distinct, consistent.outside,
    fun nickname => (members nickname).trans (consistent.members nickname),
    fun filled => bound.mpr (consistent.bound (occupied.mp filled)),
    fun closing filled => consistent.empty closing (occupied.mp filled),
    fun present => (consistent.kept (bound.mp present)).imp_left occupied.mpr⟩

/-- A member is or is not in the room, whatever the others do. -/
theorem Consistent.member_iff
    (consistent : Consistent room (world, inside) (⟨nickname, stage⟩ ::ₘ others)) :
    (room, nickname) ∈ world.redis.members ↔ stage.Member := by
  have fresh : nickname ∉ others.map Phase.nickname := by
    have distinct := consistent.distinct
    rw [Multiset.map_cons, Multiset.nodup_cons] at distinct
    exact distinct.1
  have outside : nickname ∉ inside := consistent.outside _ (Multiset.mem_cons_self _ _)
  rw [consistent.members]
  constructor
  · intro either
    rcases either with member | ⟨phase, listed, named, member⟩
    · exact absurd member outside
    · rcases Multiset.mem_cons.mp listed with same | other
      · rw [same] at member
        exact member
      · exact absurd (Multiset.mem_map.mpr ⟨phase, other, named⟩) fresh
  · intro member
    exact .inr ⟨_, Multiset.mem_cons_self _ _, rfl, member⟩

/-- A run moves on without touching the room. -/
theorem Consistent.restage
    (consistent : Consistent room (world, inside) (⟨nickname, stage⟩ ::ₘ others))
    (member : next.Member ↔ stage.Member)
    (closing : next = .closing → ¬ Occupied room world)
    (kept : stage = .removed ∨ stage = .closing → Bound room world →
      Occupied room world ∨ next = .removed ∨ next = .closing) :
    Consistent room (world, inside) (⟨nickname, next⟩ ::ₘ others) := by
  obtain ⟨distinct, outside, members, bound, empty, held⟩ := consistent
  simp only [Multiset.map_cons, Multiset.mem_cons, exists_eq_or_imp, forall_eq_or_imp] at *
  refine ⟨by simpa using distinct, by simpa using outside, fun query => ?_, bound, ?_, ?_⟩
  · simp only [Multiset.mem_cons, exists_eq_or_imp, member]
    exact members query
  · simp only [Multiset.mem_cons, exists_eq_or_imp]
    intro either
    rcases either with same | other
    · exact closing same
    · exact empty (.inr other)
  · simp only [Multiset.mem_cons, exists_eq_or_imp]
    intro present
    rcases held present with filled | own | other
    · exact .inl filled
    · exact (kept own present).imp_right .inl
    · exact .inr (.inr other)

/-- The participant of a run becomes a member. -/
theorem Consistent.add
    (consistent : Consistent room (world, inside) (⟨nickname, .joining⟩ ::ₘ others))
    (present : Bound room world) (open_ : ∀ other ∈ others, other.stage ≠ .closing) :
    Consistent room ({ world with redis := { world.redis with
      members := insert (room, nickname) world.redis.members } }, inside)
      (⟨nickname, .added⟩ ::ₘ others) := by
  obtain ⟨distinct, outside, members, -, -, -⟩ := consistent
  simp only [Multiset.map_cons, Multiset.mem_cons, exists_eq_or_imp, forall_eq_or_imp] at *
  have joined : Occupied room { world with redis := { world.redis with
      members := insert (room, nickname) world.redis.members } } :=
    occupied_iff.mpr ⟨nickname, Finset.mem_insert_self _ _⟩
  refine ⟨by simpa using distinct, by simpa using outside, fun query => ?_, fun _ => present,
    ?_, fun _ => .inl joined⟩
  · have old := members query
    simp only [Multiset.mem_cons, exists_eq_or_imp, Finset.mem_insert, Prod.mk.injEq, true_and]
    rw [old]
    by_cases same : query = nickname
    · simp [same, Stage.Member]
    · simp [same, Ne.symm same, Stage.Member]
  · intro closing
    obtain ⟨phase, listed, closes⟩ := closing
    rcases Multiset.mem_cons.mp listed with same | other
    · rw [same] at closes
      cases closes
    · exact absurd closes (open_ phase other)

/-- The participant of a run is no member any more. -/
theorem Consistent.drop
    (consistent : Consistent room (world, inside) (⟨nickname, stage⟩ ::ₘ others))
    (stayed : ¬ next.Member)
    (counted : Occupied room { world with redis := { world.redis with
        members := world.redis.members.erase (room, nickname) } } ∨ next = .removed ∨
      ∃ other ∈ others, other.stage = .removed) (later : next ≠ .closing) :
    Consistent room ({ world with redis := { world.redis with
      members := world.redis.members.erase (room, nickname) } }, inside)
      (⟨nickname, next⟩ ::ₘ others) := by
  have fresh : nickname ∉ others.map Phase.nickname := by
    have distinct := consistent.distinct
    rw [Multiset.map_cons, Multiset.nodup_cons] at distinct
    exact distinct.1
  obtain ⟨distinct, outside, members, bound, empty, held⟩ := consistent
  have fewer : Occupied room { world with redis := { world.redis with
      members := world.redis.members.erase (room, nickname) } } → Occupied room world := by
    simp only [occupied_iff]
    intro occupied
    obtain ⟨other, member⟩ := occupied
    exact ⟨other, Finset.mem_of_mem_erase member⟩
  simp only [Multiset.map_cons, Multiset.mem_cons, exists_eq_or_imp, forall_eq_or_imp] at *
  refine ⟨by simpa using distinct, by simpa using outside, fun query => ?_,
    fun filled => bound (fewer filled), ?_, ?_⟩
  · have old := members query
    simp only [Multiset.mem_cons, exists_eq_or_imp, Finset.mem_erase, ne_eq, Prod.mk.injEq,
      true_and]
    rw [old]
    by_cases same : query = nickname
    · subst same
      have nobody : ∀ phase ∈ others, phase.nickname = query → ¬ phase.stage.Member :=
        fun phase listed named => absurd (Multiset.mem_map.mpr ⟨phase, listed, named⟩) fresh
      simp only [not_true_eq_false, false_and, stayed, and_false, false_or, false_iff, not_or,
        not_exists, not_and]
      exact ⟨outside.1, nobody⟩
    · simp [same, Ne.symm same]
  · simp only [Multiset.mem_cons, exists_eq_or_imp]
    intro either filled
    rcases either with same | other
    · exact later same
    · exact empty (.inr other) (fewer filled)
  · simp only [Multiset.mem_cons, exists_eq_or_imp]
    intro present
    rcases counted with filled | own | other
    · exact .inl filled
    · exact .inr (.inl (.inl own))
    · obtain ⟨phase, listed, removed⟩ := other
      exact .inr (.inr ⟨phase, listed, .inl removed⟩)

/-- A leave that found the room empty deletes its binding. -/
theorem Consistent.close
    (consistent : Consistent room (world, inside) (⟨nickname, .closing⟩ ::ₘ others)) :
    Consistent room ({ world with redis := world.redis.delHash (.binding room) }, inside)
      (⟨nickname, .done⟩ ::ₘ others) := by
  have absent : ¬ Bound room { world with redis := world.redis.delHash (.binding room) } := by
    simp [Bound, Redis.delHash]
  have vacant : ¬ Occupied room world :=
    consistent.empty ⟨_, Multiset.mem_cons_self _ _, rfl⟩
  obtain ⟨distinct, outside, members, bound, empty, held⟩ := consistent
  simp only [Multiset.map_cons, Multiset.mem_cons, exists_eq_or_imp, forall_eq_or_imp] at *
  refine ⟨by simpa using distinct, by simpa using outside, fun query => ?_,
    fun filled => absurd filled vacant, fun _ => vacant, fun present => absurd present absent⟩
  refine (members query).trans ?_
  simp [Stage.Member]

/-! ## Steps that do not concern the room -/

/-- The step keeps the binding and the members of the room and leaves the run where
it is. -/
structure Still (room : RoomId) (phase : Phase) (op : Op) : Prop where
  unbinding : ¬ op.IsRedis Command.WritesBindings
  apart : ¬ op.IsRedis Command.WritesMembers
  fixed : ∀ reply, phase.advance op reply = phase

theorem inert_of_still {phase : Phase} (op : Op) (still : Still room phase op) :
    (outline room).Inert phase op where
  asserts _ := trivial
  keeps := by
    intro state others reply after consistent effect
    obtain ⟨world, inside⟩ := state
    obtain ⟨after, _⟩ := after
    obtain ⟨effect, -, rfl⟩ := effect
    have keeps := World.exec_keepsRedis effect
    exact Consistent.congr consistent (by rw [keeps.bindings still.unbinding])
      fun nickname => by rw [keeps.members still.apart]
  still := still.fixed

/-! ## Joining -/

theorem joinRoom_safe (nickname : Nickname) :
    (outline room).Safe (fun phase value => phase = ⟨nickname,
        if value.toBool then .added else .joining⟩) ⟨nickname, .joining⟩
      (joinRoom room nickname).run := by
  refine Threads.safe_redis fun world _ others consistent _ => ⟨trivial, ?_⟩
  intro bound redis effect _
  obtain ⟨-, rfl⟩ := effect
  refine ⟨consistent, ?_⟩
  cases bound with
  | false => rfl
  | true =>
      refine Threads.safe_redis fun world _ others consistent _ => ⟨trivial, ?_⟩
      intro taken redis effect _
      obtain ⟨-, rfl⟩ := effect
      refine ⟨consistent, ?_⟩
      cases taken with
      | true => rfl
      | false =>
          refine Threads.safe_redis fun world _ others consistent allowed => ⟨trivial, ?_⟩
          intro _ redis effect _
          obtain rfl : redis = _ := effect
          refine ⟨Consistent.add consistent allowed.1 allowed.2, ?_⟩
          refine Threads.safe_redis fun world _ others consistent _ => ⟨trivial, ?_⟩
          intro participants redis effect _
          obtain ⟨-, rfl⟩ := effect
          exact ⟨consistent, rfl⟩

theorem ensurePeer_safe (state : State) (sfuAddr : Address) (nickname : Nickname) :
    (outline room).Safe (fun phase value => phase = ⟨nickname,
        if value.toBool then .added else .refused⟩) ⟨nickname, .added⟩
      (state.ensurePeer sfuAddr room nickname) := by
  refine Threads.safe_step fun world _ others consistent _ => ⟨trivial, ?_⟩
  intro reply after effect _
  rcases effect with ⟨rfl, -, -, -, rfl⟩ | ⟨⟨message, rfl⟩, rfl⟩
  · exact ⟨Consistent.congr consistent rfl fun _ => Iff.rfl, rfl⟩
  · refine ⟨Consistent.restage consistent ?_ ?_ ?_, rfl⟩
    · simp [Stage.Member]
    · simp
    · simp

theorem undoJoin_safe (nickname : Nickname) :
    (outline room).Safe (fun phase _ => phase = ⟨nickname, .joining⟩) ⟨nickname, .refused⟩
      (undoJoin room nickname) := by
  refine Outline.Safe.bind (Outline.Safe.except_bind ?_)
  refine Threads.safe_redis_last fun world _ others consistent allowed => ⟨trivial, ?_⟩
  intro _ redis effect _
  obtain ⟨-, rfl⟩ := effect
  refine ⟨Consistent.drop consistent ?_ ?_ ?_, rfl⟩
  · simp [Stage.Member]
  · rcases allowed with another | counting
    · obtain ⟨other, member⟩ := another
      obtain ⟨apart, member⟩ := Finset.mem_erase.mp member
      refine .inl (occupied_iff.mpr ⟨other, Finset.mem_erase.mpr ⟨?_, ?_⟩⟩)
      · simpa using apart
      · exact (Redis.mem_roomMembers _).mp member
    · exact .inr (.inr counting)
  · simp

theorem joinRun_safe (state : State) (sfuAddr : Address) (nickname : Nickname) :
    (outline room).Safe (fun phase joined => phase = ⟨nickname,
        if joined then .added else .joining⟩) ⟨nickname, .joining⟩
      (joinRun state sfuAddr room nickname) := by
  have entering : (outline room).Safe (fun phase value => phase = ⟨nickname,
      if value.toBool then .added else .joining⟩) ⟨nickname, .joining⟩
      (enterRoom state sfuAddr room nickname).run := by
    refine Outline.Safe.except_bind (Outline.Safe.adapt ((joinRoom_safe nickname).mono ?_))
    intro _ joined same
    subst same
    cases joined with
    | error error => rfl
    | ok participants =>
        refine Outline.Safe.except_bind (Outline.Safe.lift ((ensurePeer_safe state sfuAddr
          nickname).mono ?_))
        intro _ ensured same
        subst same
        cases ensured with
        | ok _ => rfl
        | error error =>
            refine Outline.Safe.except_bind (Outline.Safe.lift ((undoJoin_safe nickname).mono ?_))
            intro _ _ same
            exact same
  exact Outline.Safe.bind (entering.mono fun _ _ ended => ended)

/-! ## Leaving -/

theorem leaveRoom_safe (nickname : Nickname) :
    (outline room).Safe (fun phase value => phase = ⟨nickname,
        if value.toOption.any (·.roomEmpty) then .closing else .done⟩) ⟨nickname, .leaving⟩
      (leaveRoom room nickname).run := by
  refine Threads.safe_redis fun world _ others consistent _ => ⟨trivial, ?_⟩
  intro bound redis effect _
  obtain ⟨found, rfl⟩ := effect
  refine ⟨consistent, ?_⟩
  have member : (room, nickname) ∈ world.redis.members :=
    (Consistent.member_iff consistent).mpr (by simp [Stage.Member])
  have present : Bound room world := Consistent.bound consistent (occupied_iff.mpr ⟨_, member⟩)
  obtain rfl : bound = true := found.trans present
  refine Threads.safe_redis fun world _ others consistent _ => ⟨trivial, ?_⟩
  intro removed redis effect _
  obtain ⟨counted, rfl⟩ := effect
  have member : (room, nickname) ∈ world.redis.members :=
    (Consistent.member_iff consistent).mpr (by simp [Stage.Member])
  rw [if_pos member] at counted
  subst counted
  refine ⟨Consistent.drop consistent ?_ (.inr (.inl rfl)) ?_, ?_⟩
  · simp [Stage.Member]
  · simp
  refine Threads.safe_redis fun world _ others consistent _ => ⟨trivial, ?_⟩
  intro remaining redis effect _
  obtain ⟨counted, rfl⟩ := effect
  have vacant : remaining = 0 ↔ ¬ Occupied room world := by
    rw [counted, Finset.card_eq_zero, Occupied, Finset.not_nonempty_iff_eq_empty]
  cases remaining with
  | zero =>
      refine ⟨Consistent.restage consistent ?_ (fun _ => vacant.mp rfl) ?_, ?_⟩
      · simp [Stage.Member]
      · exact fun _ _ => .inr (.inr rfl)
      refine Threads.safe_redis fun world _ others consistent _ => ⟨trivial, ?_⟩
      intro _ redis effect _
      obtain ⟨-, rfl⟩ := effect
      refine ⟨Consistent.congr consistent rfl fun query => ?_, rfl⟩
      have vacant := Consistent.empty consistent ⟨_, Multiset.mem_cons_self _ _, rfl⟩
      rw [occupied_iff, not_exists] at vacant
      refine iff_of_false (fun member => vacant query ?_) (vacant query)
      exact (Finset.mem_filter.mp member).1
  | succ remaining =>
      refine ⟨Consistent.restage consistent ?_ ?_ ?_, rfl⟩
      · simp [Stage.Member]
      · simp
      · refine fun _ _ => .inl (not_not.mp fun empty => ?_)
        cases vacant.mpr empty

/-- The last of a detach: the binding of a room that was left empty. -/
theorem closeRoomBinding_safe (nickname : Nickname) :
    (outline room).Safe (fun phase _ => phase = ⟨nickname, .done⟩) ⟨nickname, .closing⟩
      (closeRoomBinding room).run := by
  refine Threads.safe_redis fun world _ others consistent _ => ⟨trivial, ?_⟩
  intro instanceId redis effect _
  obtain ⟨-, rfl⟩ := effect
  refine ⟨consistent, ?_⟩
  refine Threads.safe_redis fun world _ others consistent _ => ⟨trivial, ?_⟩
  intro deleted redis effect _
  obtain ⟨-, rfl⟩ := effect
  refine ⟨Consistent.close consistent, ?_⟩
  have still {op : Op} (unbinding : ¬ op.IsRedis Command.WritesBindings)
      (apart : ¬ op.IsRedis Command.WritesMembers)
      (fixed : ∀ reply, (⟨nickname, .done⟩ : Phase).advance op reply = ⟨nickname, .done⟩) :
      Still room ⟨nickname, .done⟩ op := ⟨unbinding, apart, fixed⟩
  refine Outline.Safe.of_inert inert_of_still ?_
  split
  · trivial
  · refine Program.Only.except_bind (decrementSfuRoomLoad_only ?_ ?_ ?_ ?_ ?_) fun _ => trivial
    · exact still id id fun _ => rfl
    · exact fun _ => still id id fun _ => rfl
    · exact still id id fun _ => rfl
    · exact still id id fun _ => rfl
    · exact fun _ => still id id fun _ => rfl

theorem detachPeer_safe (state : State) (nickname : Nickname) (reason : String) :
    (outline room).Safe (fun phase _ => phase = ⟨nickname, .done⟩) ⟨nickname, .leaving⟩
      (state.detachPeer room nickname reason) := by
  refine Outline.Safe.bind
      ((Outline.Safe.of_inert inert_of_still (State.routeBeforeDetach_only ?_ ?_)).mono ?_)
  · exact ⟨id, id, fun _ => rfl⟩
  · exact ⟨id, id, fun _ => rfl⟩
  intro _ route same
  subst same
  refine Outline.Safe.inert_bind (inert_of_still _ ⟨id, id, fun _ => rfl⟩) fun _ _ _ _ => ?_
  have member : (outline room).Safe (fun phase empty => phase = ⟨nickname,
      if empty then .closing else .done⟩) ⟨nickname, .leaving⟩
      (State.detachMember room nickname) := by
    refine Outline.Safe.bind ((Threads.safe_isRedisAvailable (inert_of_still _
      ⟨id, id, fun _ => rfl⟩)).mono ?_)
    intro _ available ended
    obtain ⟨same, answered⟩ := ended
    subst same
    subst answered
    refine Outline.Safe.bind ((leaveRoom_safe nickname).mono ?_)
    intro _ left same
    subst same
    cases left with
    | ok left => cases left with | mk roomEmpty => cases roomEmpty <;> rfl
    | error error => rfl
  refine Outline.Safe.bind (member.mono ?_)
  intro _ empty same
  subst same
  have fromSfu {phase : Phase} (still : ∀ sfuAddr,
      Still room phase (.deletePeer sfuAddr room nickname reason)) :
      (outline room).Safe (fun last _ => last = phase) phase
        (State.detachFromSfu room nickname reason (route.bind RoomRoute.sfuGrpcAddr)) :=
    Outline.Safe.of_inert inert_of_still (State.detachFromSfu_only still)
  cases empty with
  | false =>
      refine Outline.Safe.bind ((fromSfu fun _ => ⟨id, id, fun _ => rfl⟩).mono ?_)
      intro _ _ same
      exact same
  | true =>
      refine Outline.Safe.bind ((fromSfu fun _ => ⟨id, id, fun _ => rfl⟩).mono ?_)
      intro _ _ same
      subst same
      exact Outline.Safe.bind ((closeRoomBinding_safe nickname).mono fun _ _ ended => ended)

/-! ## Runs -/

/-- A run ends; a join that succeeded is inside from now on. -/
theorem Consistent.finish {joined : Bool}
    (consistent : Consistent room (world, inside) (⟨nickname, stage⟩ ::ₘ others))
    (member : stage.Member ↔ joined = true) (settled : stage ≠ .removed ∧ stage ≠ .closing) :
    Consistent room (world, if joined then insert nickname inside else inside) others := by
  have fresh : nickname ∉ others.map Phase.nickname := by
    have distinct := consistent.distinct
    rw [Multiset.map_cons, Multiset.nodup_cons] at distinct
    exact distinct.1
  obtain ⟨distinct, outside, members, bound, empty, held⟩ := consistent
  simp only [Multiset.map_cons, Multiset.mem_cons, exists_eq_or_imp, forall_eq_or_imp, settled.1,
    settled.2, false_or, member] at *
  refine ⟨(Multiset.nodup_cons.mp distinct).2, fun phase listed => ?_, fun query => ?_, bound,
    empty, held⟩
  · have apart : phase.nickname ≠ nickname := fun same =>
      fresh (Multiset.mem_map.mpr ⟨phase, listed, same⟩)
    cases joined with
    | false => exact outside.2 phase listed
    | true => simpa [apart] using outside.2 phase listed
  · refine (members query).trans ?_
    cases joined with
    | false => simp
    | true =>
        simp only [and_true, ↓reduceIte, Finset.mem_insert]
        by_cases same : query = nickname
        · simp [same]
        · simp [same, Ne.symm same]

/-- A join may start under a free nickname. -/
theorem Consistent.start_join (consistent : Consistent room (world, inside) others)
    (free : Free inside others nickname) :
    Consistent room (world, inside) (⟨nickname, .joining⟩ ::ₘ others) := by
  obtain ⟨distinct, outside, members, bound, empty, held⟩ := consistent
  constructor <;>
    simp only [Multiset.map_cons, Multiset.mem_cons, exists_eq_or_imp, forall_eq_or_imp]
  · exact Multiset.nodup_cons.mpr ⟨free.2, distinct⟩
  · exact ⟨free.1, outside⟩
  · intro query
    simpa [Stage.Member] using members query
  · exact bound
  · simpa using empty
  · simpa using held

/-- A participant that is inside may leave. -/
theorem Consistent.start_leave (consistent : Consistent room (world, inside) others)
    (member : nickname ∈ inside) :
    Consistent room (world, inside.erase nickname) (⟨nickname, .leaving⟩ ::ₘ others) := by
  obtain ⟨distinct, outside, members, bound, empty, held⟩ := consistent
  have fresh : nickname ∉ others.map Phase.nickname := by
    intro busy
    obtain ⟨phase, listed, named⟩ := Multiset.mem_map.mp busy
    exact outside phase listed (named ▸ member)
  constructor <;>
    simp only [Multiset.map_cons, Multiset.mem_cons, exists_eq_or_imp, forall_eq_or_imp]
  · exact Multiset.nodup_cons.mpr ⟨fresh, distinct⟩
  · exact ⟨Finset.notMem_erase _ _, fun phase listed inner =>
      outside phase listed (Finset.mem_of_mem_erase inner)⟩
  · intro query
    refine (members query).trans ?_
    by_cases same : query = nickname
    · simp [same, member, Stage.Member]
    · simp [same, Ne.symm same]
  · exact bound
  · simpa using empty
  · simpa using held

theorem stable : (outline room).Stable where
  start := by
    intro before others phase program after started consistent
    obtain ⟨world, inside⟩ := before
    obtain ⟨world', kept⟩ := after
    obtain ⟨nickname, stage⟩ := phase
    obtain ⟨same, programs⟩ := started
    obtain rfl : world' = world := same
    rcases programs with ⟨state, sfuAddr, free, rfl, rfl, rfl⟩ |
      ⟨state, reason, member, rfl, rfl, left⟩
    · refine ⟨Consistent.start_join consistent free, (joinRun_safe state sfuAddr nickname).mono ?_⟩
      intro _ joined same state others consistent
      subst same
      cases joined with
      | true => exact Consistent.finish consistent (by simp [Stage.Member]) (by simp)
      | false => exact Consistent.finish consistent (by simp [Stage.Member]) (by simp)
    · obtain rfl : kept = inside.erase nickname := left
      refine ⟨Consistent.start_leave consistent member, Outline.Safe.bind
        ((detachPeer_safe state nickname reason).mono ?_)⟩
      intro _ _ same state others consistent
      subst same
      have member : Stage.done.Member ↔ false = true := by simp [Stage.Member]
      exact Consistent.finish consistent member (by simp)
  discard _ _ _ never := never.elim
  environment := by
    intro before others after changed consistent
    obtain ⟨world, inside⟩ := before
    obtain ⟨after, _⟩ := after
    obtain ⟨rfl, bindings, members⟩ := changed
    exact Consistent.congr consistent bindings members

/-- The room when no run is in progress. -/
theorem consistent_zero : Consistent room (world, inside) 0 ↔
    (Bound room world ↔ Occupied room world) ∧
      ∀ nickname, (room, nickname) ∈ world.redis.members ↔ nickname ∈ inside := by
  constructor
  · intro consistent
    refine ⟨⟨fun bound => ?_, consistent.bound⟩, fun nickname => ?_⟩
    · simpa using consistent.kept bound
    · simpa using consistent.members nickname
  · intro ⟨same, members⟩
    exact ⟨by simp, by simp, by simpa using members, same.mpr, by simp,
      fun bound => .inl (same.mp bound)⟩

/-- No run is in progress, and the members of the room are inside. -/
def begin (room : RoomId) (world : World) : (threads room).system.Pool :=
  ⟨(world, world.redis.roomMembers room), []⟩

/-- The participants whose join succeeded and who have not left since. -/
def joined (pool : (threads room).system.Pool) : Finset Nickname := pool.state.2

/-- **The binding of a room exists exactly while it has members, and nobody who
joined is lost**, in every run in which no member is added to a closing room and
none is taken back from an otherwise empty one. -/
theorem bound_iff_occupied {world : World} (start : Bound room world ↔ Occupied room world)
    {pool : (threads room).system.Pool} (run : Reaches (guard room) (begin room world) pool)
    (quiescent : pool.Quiescent) :
    (Bound room pool.state.1 ↔ Occupied room pool.state.1) ∧
      ∀ nickname ∈ joined pool, (room, nickname) ∈ pool.state.1.redis.members := by
  have initial : (outline room).Holds (begin room world) :=
    .of_quiescent (consistent_zero.mpr ⟨start, fun nickname => (Redis.mem_roomMembers _).symm⟩)
  have last := consistent_zero.mp ((initial.reaches stable run).quiescent quiescent)
  exact ⟨last.1, fun nickname inside => (last.2 nickname).mpr inside⟩

/-! ## The last member leaves while another joins -/

instance (world : World) (op : Op) (reply : op.Reply) :
    Decidable ((threads room).assumed world op reply) := inferInstanceAs (Decidable True)

instance decidableAllowed (world : World) (phase : Phase) (op : Op) (others : Multiset Phase) :
    Decidable (Allowed room world phase op others) := by
  have counting : Decidable (∃ other ∈ others, other.stage = .removed) :=
    Multiset.decidableExistsMultiset
  unfold Allowed
  split <;> infer_instance

instance : ∀ state phase op others, Decidable (guard room state phase op others) :=
  fun state phase op others => decidableAllowed state.1 phase op others

/-- A room with one member. -/
def hosted : World :=
  let world := World.fresh.assignTo "room-1"
  { world with
    redis := { world.redis with members := {("room-1", "alice")} }
    sfuPeers := {(sampleSfu.grpcAddr, "room-1", "alice")} }

/-- The member leaves while another participant joins. -/
def both : List (threads "room-1").system.Thread :=
  [⟨⟨"alice", .leaving⟩, leaveRun sampleNode "room-1" "alice" "user_left"⟩,
    ⟨⟨"bob", .joining⟩, joinRun sampleNode sampleSfu.grpcAddr "room-1" "bob"⟩]

theorem reaches_both {guard : (threads "room-1").system.Guard} :
    Reaches guard (begin "room-1" hosted) ⟨(hosted, (∅ : Finset Nickname)), both⟩ := by
  have joining : (threads "room-1").start (hosted, hosted.redis.roomMembers "room-1") 0
      ⟨"bob", .joining⟩ (joinRun sampleNode sampleSfu.grpcAddr "room-1" "bob")
      (hosted, hosted.redis.roomMembers "room-1") :=
    ⟨rfl, .inl ⟨_, _, ⟨by decide, Multiset.notMem_zero _⟩, rfl, rfl, rfl⟩⟩
  have leaving (phases : Multiset Phase) : (threads "room-1").start
      (hosted, hosted.redis.roomMembers "room-1") phases
      ⟨"alice", .leaving⟩ (leaveRun sampleNode "room-1" "alice" "user_left")
      (hosted, (∅ : Finset Nickname)) :=
    ⟨rfl, .inr ⟨_, _, by decide, rfl, rfl, by decide⟩⟩
  exact .tail (.tail .refl (.start joining)) (.start (leaving _))

/-- The join is over before the leave begins. -/
def oneByOne : List (ℕ × Hint) :=
  (1, {}) :: (1, {}) :: (1, {}) :: (1, { names := ["alice", "bob"] }) :: (turns 1 2 ++ turns 0 9)

/-- A room entered before its last other member leaves stays open. -/
theorem bound_iff_occupied_oneByOne : ∃ pool : (threads "room-1").system.Pool,
    Reaches (guard "room-1") (begin "room-1" hosted) pool ∧ pool.Quiescent ∧
      joined pool = {"bob"} ∧ Bound "room-1" pool.state.1 ∧ Occupied "room-1" pool.state.1 := by
  have replayed : ((threads "room-1").sampler.replay (guard "room-1") oneByOne
      ⟨(hosted, (∅ : Finset Nickname)), both⟩).any
      (fun pool => pool.threads.isEmpty ∧ joined pool = {"bob"} ∧ Bound "room-1" pool.state.1) =
        true := by
    decide +kernel
  obtain ⟨pool, run, passed⟩ := Sampler.exists_of_replay replayed
  obtain ⟨quiescent, inside, bound⟩ := of_decide_eq_true passed
  have quiescent := List.isEmpty_iff.mp quiescent
  have start : Bound "room-1" hosted ↔ Occupied "room-1" hosted := iff_of_true rfl (by decide)
  exact ⟨pool, reaches_both.trans run, quiescent, inside, bound,
    (bound_iff_occupied start (reaches_both.trans run) quiescent).1.mp bound⟩

/-- The join has passed its checks before the leave, which has counted no member
before the join adds one. -/
def interleaved : List (ℕ × Hint) :=
  (1, {}) :: (1, {}) :: (turns 0 9 ++ (1, {}) :: (1, { names := ["bob"] }) :: (1, {}) ::
    (turns 0 8 ++ turns 0 1))

/-- **A join meets a closing room**: the join has succeeded and its participant is a
member of a room whose binding is gone. -/
theorem joined_closed : (Bound "room-1" hosted ↔ Occupied "room-1" hosted) ∧
    ∃ pool : (threads "room-1").system.Pool,
      Reaches unguarded (begin "room-1" hosted) pool ∧ pool.Quiescent ∧ joined pool = {"bob"} ∧
        Occupied "room-1" pool.state.1 ∧ ¬ Bound "room-1" pool.state.1 := by
  refine ⟨iff_of_true rfl (by decide), ?_⟩
  have replayed : ((threads "room-1").sampler.replay unguarded interleaved
      ⟨(hosted, (∅ : Finset Nickname)), both⟩).any
      (fun pool => pool.threads.isEmpty ∧ joined pool = {"bob"} ∧
        Occupied "room-1" pool.state.1 ∧ ¬ Bound "room-1" pool.state.1) = true := by
    decide +kernel
  obtain ⟨pool, run, passed⟩ := Sampler.exists_of_replay replayed
  obtain ⟨quiescent, inside, occupied, unbound⟩ := of_decide_eq_true passed
  exact ⟨pool, reaches_both.trans run, List.isEmpty_iff.mp quiescent, inside, occupied, unbound⟩

end Callifornia.Membership
