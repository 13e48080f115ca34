import Callifornia.Replay
import Callifornia.Signaling.Handlers
import Callifornia.Supervisor.Runs

/-! # The janitor's sweep of orphan member sets

An iteration scans the bindings, reclaims rooms, then scans the member sets and deletes
those whose room was not among the bindings. A room created in between has a member set
and no binding among those scanned. A room whose first member comes before the scan of
the bindings or after the scan of the member sets is safe.
-/

namespace Callifornia.OrphanSweep

open Concurrency Concurrency.System FiniteMap Store Signaling Supervisor

/-- What an iteration has learned so far. -/
structure Sweep where
  alive : List NodeId := []
  /-- The scan of the bindings has begun. -/
  began : Bool := false
  found : Finset RoomId := ∅
  /-- Bound since the scan began and not found yet. -/
  owed : Finset RoomId := ∅
  listed : Finset RoomId := ∅
  /-- The scan of the member sets has ended. -/
  ended : Bool := false
  /-- The room whose binding was deleted last. -/
  unbound : Option RoomId := none
  deriving DecidableEq

/-- The rooms that the scan of the bindings finds if they stay bound. -/
def Sweep.covered (sweep : Sweep) : Finset RoomId := sweep.found ∪ sweep.owed

/-- How far a run is. -/
inductive Phase
  | janitor (sweep : Sweep)
  /-- A create that has drawn the id of its room and not bound it. -/
  | drawn (roomId : RoomId)
  /-- A create or a join; the room whose binding it has seen. -/
  | handler (entering : Option RoomId)
  deriving DecidableEq

namespace Phase

def advance : Phase → (op : Op) → op.Reply → Phase
  | .janitor sweep, .redis (.zrangeByScore ..), .ok alive => .janitor { sweep with alive }
  | .janitor sweep, .redis (.scan .bindings _), .ok page =>
      .janitor { sweep with
        began := true
        found := sweep.found ∪ page.1.toFinset
        owed := page.2.getD ∅ }
  | .janitor sweep, .redis (.scan .members _), .ok page =>
      .janitor { sweep with
        listed := sweep.listed ∪ page.1.toFinset
        ended := page.2.isNone }
  | .janitor sweep, .redis (.del (.binding roomId)), _ =>
      .janitor { sweep with unbound := some roomId }
  | .handler _, .newUuid, roomId => .drawn roomId
  | .handler entering, .redis (.exists (.binding roomId)), .ok bound =>
      .handler (if bound then some roomId else entering)
  | .drawn _, .redis (.assignRoomToSfu ..), _ => .handler none
  | phase, _, _ => phase

/-- The run knows of the room. -/
def Mentions (roomId : RoomId) : Phase → Prop
  | .janitor sweep => roomId ∈ sweep.covered ∨ roomId ∈ sweep.listed ∨ sweep.unbound = some roomId
  | .drawn own => own = roomId
  | .handler entering => entering = some roomId

/-- The run does not mind a new member of the room: it has not begun its scan of the
bindings, it has ended its scan of the member sets, or the first scan covers the room. -/
def Admits (roomId : RoomId) : Phase → Prop
  | .janitor sweep => sweep.began = false ∨ sweep.ended = true ∨ roomId ∈ sweep.covered
  | _ => True

/-- An iteration that has not scanned anything knows of no room. -/
theorem not_mentions_blank (alive : List NodeId) (roomId : RoomId) :
    ¬ (janitor { alive }).Mentions roomId := by
  intro mentions
  rcases mentions with covered | listed | deleted
  · rcases Finset.mem_union.mp covered with found | owed
    · exact Finset.notMem_empty roomId found
    · exact Finset.notMem_empty roomId owed
  · exact Finset.notMem_empty roomId listed
  · cases deleted

instance (roomId : RoomId) : DecidablePred (Admits roomId) := fun phase => by
  unfold Admits
  split <;> infer_instance

end Phase

/-- Any number of iterations, creates and joins, on any nodes. Time passes. -/
def threads : Threads where
  Phase := Phase
  Ghost := Unit
  Result := Unit
  advance := Phase.advance
  start before _ phase program after := after = before ∧
    ((∃ config : Supervisor.Config, phase = .janitor {} ∧
        program = logged (runJanitorIteration config)) ∨
      (∃ (state : State) (connection : ConnectionId) (sessionId : SessionId),
        phase = .handler none ∧
          program = Functor.mapConst () (handleCreateLocked state connection sessionId).run) ∨
      ∃ (state : State) (connection : ConnectionId) (sessionId : SessionId) (roomId : RoomId),
        phase = .handler none ∧
          program = Functor.mapConst () (handleJoinLocked state connection sessionId roomId).run)
  environment before _ after := ∃ time, before.1.now ≤ time ∧ after.1 = before.1.elapse time

/-- The room has no binding, or the owner of its binding is not among these nodes. -/
def Deserted (alive : List NodeId) (world : World) (roomId : RoomId) : Prop :=
  ∀ hash ∈ world.redis.bindings.lookup roomId, owner hash ∉ alive

instance (alive : List NodeId) (world : World) (roomId : RoomId) :
    Decidable (Deserted alive world roomId) :=
  inferInstanceAs (Decidable (∀ hash ∈ _, _))

/-- A member is added to a room that has a binding only if no iteration minds. -/
def Allowed (world : World) : Op → Multiset Phase → Prop
  | .redis (.sadd roomId _), others =>
      roomId ∈ world.redis.bindings → ∀ other ∈ others, other.Admits roomId
  | _, _ => True

def guard : threads.system.Guard := fun state _ op others => Allowed state.1 op others

/-- A room that only the create that drew its id knows of. -/
structure Secret (world : World) (others : Multiset Phase) (roomId : RoomId) : Prop where
  unbound : roomId ∉ world.redis.bindings
  empty : ∀ nickname, (roomId, nickname) ∉ world.redis.members
  unmentioned : ∀ other ∈ others, ¬ other.Mentions roomId

/-- What an iteration has learned is true. -/
structure Informed (world : World) (sweep : Sweep) : Prop where
  /-- Until the second scan ends, the first one covers every bound room with members. -/
  covers : sweep.began = true → sweep.ended = false → ∀ roomId ∈ world.redis.bindings,
    ∀ nickname, (roomId, nickname) ∈ world.redis.members → roomId ∈ sweep.covered
  /-- A room with members that the first scan does not cover had no binding. -/
  orphans : ∀ roomId ∈ sweep.listed, roomId ∉ sweep.covered → roomId ∉ world.redis.bindings
  unbound : ∀ roomId, sweep.unbound = some roomId → roomId ∉ world.redis.bindings

/-- Every room in the store or known to a run has been drawn. -/
structure Sound (world : World) (phases : Multiset Phase) : Prop where
  bindings : ∀ roomId ∈ world.redis.bindings, roomId ∈ world.issued
  members : ∀ roomId nickname, (roomId, nickname) ∈ world.redis.members → roomId ∈ world.issued
  mentioned : ∀ phase ∈ phases, ∀ roomId, phase.Mentions roomId → roomId ∈ world.issued
  secret : ∀ roomId others, phases = .drawn roomId ::ₘ others → Secret world others roomId
  informed : ∀ sweep, .janitor sweep ∈ phases → Informed world sweep

def outline : Outline threads.system where
  guard := guard
  inv state := Sound state.1
  asserts state phase op := match phase, op with
    | .janitor sweep, .redis (.delMembers roomId) => Deserted sweep.alive state.1 roomId
    | _, _ => True

variable {world after : World} {phase phase' : Phase} {others : Multiset Phase}

/-! ## Steps that add nothing -/

/-- Nothing is bound, no member added and no id forgotten. -/
structure Shrinks (before after : World) : Prop where
  bindings : ∀ roomId ∈ after.redis.bindings, roomId ∈ before.redis.bindings
  members : after.redis.members ⊆ before.redis.members
  issued : before.issued ⊆ after.issued

/-- A step that keeps the rooms and the members adds none. -/
theorem Shrinks.of_eq (bindings : after.redis.bindings = world.redis.bindings)
    (members : after.redis.members = world.redis.members) (issued : world.issued ⊆ after.issued) :
    Shrinks world after := by
  refine ⟨fun roomId bound => ?_, ?_, issued⟩
  · rwa [← bindings]
  · rw [members]

/-- The step may bind a room, add a member or draw an id. -/
def Adds : Op → Prop
  | .newUuid | .redis (.sadd ..) | .redis (.assignRoomToSfu ..) | .redis (.hset (.binding _) ..) =>
      True
  | _ => False

/-- A step that adds no binding, no member and no id. -/
theorem shrinks_of_not_adds {op : Op} {reply : op.Reply}
    (step : World.exec op world reply after) (plain : ¬ Adds op) : Shrinks world after := by
  have issued : world.issued ⊆ after.issued := by
    rw [World.exec_issued step]
    intro same
    subst same
    exact plain trivial
  have keeps := World.exec_keepsRedis step
  cases op with
  | redis command =>
      obtain ⟨value, redis, effect, -, rfl⟩ := step
      cases command with
      | del key =>
          obtain ⟨-, rfl⟩ := effect
          cases key with
          | binding roomId =>
              refine ⟨fun query bound => ?_, subset_rfl, issued⟩
              exact (Finmap.mem_erase.mp bound).2
          | session => exact .of_eq rfl rfl issued
      | srem =>
          obtain ⟨-, rfl⟩ := effect
          exact ⟨fun _ bound => bound, Finset.erase_subset _ _, issued⟩
      | delMembers =>
          obtain ⟨-, rfl⟩ := effect
          exact ⟨fun _ bound => bound, Finset.filter_subset _ _, issued⟩
      | sadd | assignRoomToSfu => exact absurd trivial plain
      | hset key =>
          cases key with
          | binding => exact absurd trivial plain
          | session => exact .of_eq (keeps.bindings id) (keeps.members id) issued
      | _ => exact .of_eq (keeps.bindings id) (keeps.members id) issued
  | _ => exact .of_eq (keeps.bindings id) (keeps.members id) issued

/-- What a sweep has read stays true when rooms go. -/
theorem Informed.shrink {sweep : Sweep} (informed : Informed world sweep)
    (shrinks : Shrinks world after) : Informed after sweep where
  covers began goes roomId bound nickname member :=
    informed.covers began goes roomId (shrinks.bindings roomId bound) nickname
      (shrinks.members member)
  orphans roomId listed uncovered :=
    mt (shrinks.bindings roomId) (informed.orphans roomId listed uncovered)
  unbound roomId deleted := mt (shrinks.bindings roomId) (informed.unbound roomId deleted)

/-- A room that nobody else knows stays unknown. -/
theorem Secret.shrink {roomId : RoomId} (secret : Secret world others roomId)
    (shrinks : Shrinks world after) : Secret after others roomId where
  unbound := mt (shrinks.bindings roomId) secret.unbound
  empty nickname := mt (shrinks.members ·) (secret.empty nickname)
  unmentioned := secret.unmentioned

namespace Sound

/-- A run moves on while nothing is added. It may not learn of a room that another
run keeps secret. -/
theorem move (sound : Sound world (phase ::ₘ others)) (shrinks : Shrinks world after)
    (mentioned : ∀ roomId, phase'.Mentions roomId →
      roomId ∈ after.issued ∧ Phase.drawn roomId ∉ others)
    (secret : ∀ roomId, phase' = .drawn roomId → Secret after others roomId)
    (informed : ∀ sweep, phase' = .janitor sweep → Informed after sweep) :
    Sound after (phase' ::ₘ others) where
  bindings roomId bound := shrinks.issued (sound.bindings roomId (shrinks.bindings roomId bound))
  members roomId nickname member :=
    shrinks.issued (sound.members roomId nickname (shrinks.members member))
  mentioned other member roomId mentions := by
    rcases Multiset.mem_cons.mp member with rfl | member
    · exact (mentioned roomId mentions).1
    · exact shrinks.issued
        (sound.mentioned other (Multiset.mem_cons_of_mem member) roomId mentions)
  secret roomId rest split := by
    rcases Multiset.cons_eq_cons.mp split with ⟨own, rfl⟩ | ⟨-, shared, rfl, rfl⟩
    · exact secret roomId own
    · have before := sound.secret roomId (phase ::ₘ shared) (Multiset.cons_swap _ _ _)
      obtain ⟨unbound, empty, unmentioned⟩ := before.shrink shrinks
      refine ⟨unbound, empty, fun other member mentions => ?_⟩
      rcases Multiset.mem_cons.mp member with rfl | member
      · exact (mentioned roomId mentions).2 (Multiset.mem_cons_self _ _)
      · exact unmentioned other (Multiset.mem_cons_of_mem member) mentions
  informed sweep member := by
    rcases Multiset.mem_cons.mp member with own | member
    · exact informed sweep own.symm
    · exact (sound.informed sweep (Multiset.mem_cons_of_mem member)).shrink shrinks

/-- Another run does not keep secret what this run knows. -/
theorem shared (sound : Sound world (phase ::ₘ others)) {roomId : RoomId}
    (mentions : phase.Mentions roomId) : Phase.drawn roomId ∉ others := by
  intro member
  obtain ⟨rest, rfl⟩ := Multiset.exists_cons_of_mem member
  exact (sound.secret roomId (phase ::ₘ rest) (Multiset.cons_swap _ _ _)).unmentioned phase
    (Multiset.mem_cons_self _ _) mentions

/-- No run keeps secret a room that is bound or has members. -/
theorem open_of_used (sound : Sound world (phase ::ₘ others)) {roomId : RoomId}
    (used : roomId ∈ world.redis.bindings ∨ ∃ nickname, (roomId, nickname) ∈ world.redis.members) :
    Phase.drawn roomId ∉ others := by
  intro member
  obtain ⟨rest, rfl⟩ := Multiset.exists_cons_of_mem member
  have secret := sound.secret roomId (phase ::ₘ rest) (Multiset.cons_swap _ _ _)
  rcases used with bound | ⟨nickname, member⟩
  · exact secret.unbound bound
  · exact secret.empty nickname member

/-- A run that stays in its phase while nothing is added. -/
theorem stay (sound : Sound world (phase ::ₘ others)) (shrinks : Shrinks world after) :
    Sound after (phase ::ₘ others) := by
  refine sound.move shrinks (fun roomId mentions => ⟨?_, sound.shared mentions⟩)
    (fun roomId own => ?_) fun sweep own => ?_
  · exact shrinks.issued (sound.mentioned phase (Multiset.mem_cons_self _ _) roomId mentions)
  · subst own
    exact (sound.secret roomId others rfl).shrink shrinks
  · subst own
    exact (sound.informed sweep (Multiset.mem_cons_self _ _)).shrink shrinks

/-- An iteration learns of rooms that are bound or have members. -/
theorem learn {sweep sweep' : Sweep} (sound : Sound world (.janitor sweep ::ₘ others))
    (shrinks : Shrinks world after)
    (mentions : ∀ roomId, (Phase.janitor sweep').Mentions roomId →
      (Phase.janitor sweep).Mentions roomId ∨ roomId ∈ world.redis.bindings ∨
        ∃ nickname, (roomId, nickname) ∈ world.redis.members)
    (informed : Informed after sweep') : Sound after (.janitor sweep' ::ₘ others) := by
  refine sound.move shrinks (fun roomId learned => ?_) nofun fun sweep own => ?_
  · rcases mentions roomId learned with knew | used
    · exact ⟨shrinks.issued (sound.mentioned _ (Multiset.mem_cons_self _ _) roomId knew),
        sound.shared knew⟩
    · refine ⟨shrinks.issued ?_, sound.open_of_used used⟩
      rcases used with bound | ⟨nickname, member⟩
      · exact sound.bindings roomId bound
      · exact sound.members roomId nickname member
  · exact Phase.janitor.inj own ▸ informed

/-- A create draws the id of its room. -/
theorem draw {entering : Option RoomId} {roomId : RoomId}
    (sound : Sound world (.handler entering ::ₘ others)) (fresh : roomId ∉ world.issued) :
    Sound { world with issued := insert roomId world.issued } (.drawn roomId ::ₘ others) := by
  have shrinks : Shrinks world { world with issued := insert roomId world.issued } :=
    .of_eq rfl rfl (Finset.subset_insert _ _)
  have unmentioned : ∀ other ∈ others, ¬ other.Mentions roomId := fun other member mentions =>
    fresh (sound.mentioned other (Multiset.mem_cons_of_mem member) roomId mentions)
  refine sound.move shrinks (fun query own => ?_) (fun query own => ?_) nofun
  · obtain rfl : roomId = query := own
    exact ⟨Finset.mem_insert_self _ _, fun member => unmentioned _ member rfl⟩
  · obtain rfl : roomId = query := Phase.drawn.inj own
    exact ⟨mt (sound.bindings roomId) fresh,
      fun nickname => mt (sound.members roomId nickname) fresh, unmentioned⟩

/-- A create binds the room it has drawn. -/
theorem bind {roomId : RoomId} {hash : Hash} {scores : SortedSet → Map String ℤ}
    {instances : Map InstanceId SfuInstance}
    (sound : Sound world (.drawn roomId ::ₘ others)) :
    Sound { world with
      redis := { world.redis with
        bindings := world.redis.bindings.insert roomId hash, scores, instances } }
      (.handler none ::ₘ others) := by
  have own := sound.secret roomId others rfl
  have issued := sound.mentioned _ (Multiset.mem_cons_self _ _) roomId rfl
  have bound {query : RoomId} (bound : query ∈ world.redis.bindings.insert roomId hash) :
      query = roomId ∨ query ∈ world.redis.bindings := Finmap.mem_insert.mp bound
  refine ⟨fun query member => ?_, sound.members, fun other member query mentions => ?_,
    fun query rest split => ?_, fun sweep member => ?_⟩
  · rcases bound member with rfl | before
    · exact issued
    · exact sound.bindings query before
  · rcases Multiset.mem_cons.mp member with rfl | member
    · cases mentions
    · exact sound.mentioned other (Multiset.mem_cons_of_mem member) query mentions
  · rcases Multiset.cons_eq_cons.mp split with ⟨impossible, -⟩ | ⟨-, shared, rfl, rfl⟩
    · cases impossible
    · have before := sound.secret query (.drawn roomId ::ₘ shared) (Multiset.cons_swap _ _ _)
      have apart : query ≠ roomId := by
        intro same
        subst same
        exact before.unmentioned _ (Multiset.mem_cons_self _ _) rfl
      refine ⟨fun member => (bound member).elim apart before.unbound, before.empty, ?_⟩
      intro other member mentions
      rcases Multiset.mem_cons.mp member with rfl | member
      · cases mentions
      · exact before.unmentioned other (Multiset.mem_cons_of_mem member) mentions
  · have member := (Multiset.mem_cons.mp member).resolve_left nofun
    have informed := sound.informed sweep (Multiset.mem_cons_of_mem member)
    have unknown := own.unmentioned _ member
    refine ⟨fun began goes query present nickname listed => ?_,
      fun query listed uncovered present => ?_,
      fun query deleted present => ?_⟩
    · rcases bound present with rfl | present
      · exact absurd listed (own.empty nickname)
      · exact informed.covers began goes query present nickname listed
    · rcases bound present with rfl | present
      · exact unknown (.inr (.inl listed))
      · exact informed.orphans query listed uncovered present
    · rcases bound present with rfl | present
      · exact unknown (.inr (.inr deleted))
      · exact informed.unbound query deleted present

/-- A member is added to a room that was seen bound; no iteration minds. -/
theorem add {roomId : RoomId} {nickname : Nickname}
    (sound : Sound world (.handler (some roomId) ::ₘ others))
    (admitted : roomId ∈ world.redis.bindings → ∀ other ∈ others, other.Admits roomId) :
    Sound { world with
      redis := { world.redis with members := insert (roomId, nickname) world.redis.members } }
      (.handler (some roomId) ::ₘ others) := by
  have issued := sound.mentioned _ (Multiset.mem_cons_self _ _) roomId rfl
  have listed {query : RoomId} {name : Nickname}
      (member : (query, name) ∈ insert (roomId, nickname) world.redis.members) :
      query = roomId ∨ (query, name) ∈ world.redis.members :=
    (Finset.mem_insert.mp member).imp_left fun same => congrArg Prod.fst same
  refine ⟨sound.bindings, fun query name member => ?_, sound.mentioned, fun query rest split => ?_,
    fun sweep member => ?_⟩
  · rcases listed member with rfl | before
    · exact issued
    · exact sound.members query name before
  · have before := sound.secret query rest split
    refine ⟨before.unbound, fun name member => ?_, before.unmentioned⟩
    rcases listed member with rfl | member
    · rcases Multiset.cons_eq_cons.mp split with ⟨impossible, -⟩ | ⟨-, shared, rfl, rfl⟩
      · cases impossible
      · exact before.unmentioned _ (Multiset.mem_cons_self _ _) rfl
    · exact before.empty name member
  · have informed := sound.informed sweep member
    refine ⟨fun began goes query present name added => ?_, informed.orphans, informed.unbound⟩
    rcases listed added with rfl | before
    · have member := (Multiset.mem_cons.mp member).resolve_left nofun
      rcases admitted present _ member with early | late | covered
      · exact absurd (early.symm.trans began) nofun
      · exact absurd (late.symm.trans goes) nofun
      · exact covered
    · exact informed.covers began goes query present name before

/-- A run ends. -/
theorem finish (sound : Sound world (phase ::ₘ others)) : Sound world others where
  bindings := sound.bindings
  members := sound.members
  mentioned other member := sound.mentioned other (Multiset.mem_cons_of_mem member)
  secret roomId rest split := by
    subst split
    have before := sound.secret roomId (phase ::ₘ rest) (Multiset.cons_swap _ _ _)
    exact ⟨before.unbound, before.empty, fun other member =>
      before.unmentioned other (Multiset.mem_cons_of_mem member)⟩
  informed sweep member := sound.informed sweep (Multiset.mem_cons_of_mem member)

/-- A run begins that knows of no room. -/
theorem start (sound : Sound world others) (fresh : phase = .janitor {} ∨ phase = .handler none) :
    Sound world (phase ::ₘ others) := by
  have unmentioned (roomId : RoomId) : ¬ phase.Mentions roomId := by
    rcases fresh with rfl | rfl
    · exact Phase.not_mentions_blank [] roomId
    · exact nofun
  refine ⟨sound.bindings, sound.members, fun other member roomId mentions => ?_,
    fun roomId rest split => ?_, fun sweep member => ?_⟩
  · rcases Multiset.mem_cons.mp member with rfl | member
    · exact absurd mentions (unmentioned roomId)
    · exact sound.mentioned other member roomId mentions
  · rcases Multiset.cons_eq_cons.mp split with ⟨own, -⟩ | ⟨-, shared, rfl, rfl⟩
    · exact absurd (show phase.Mentions roomId from own ▸ rfl) (unmentioned roomId)
    · have before := sound.secret roomId shared rfl
      refine ⟨before.unbound, before.empty, fun other member => ?_⟩
      rcases Multiset.mem_cons.mp member with rfl | member
      · exact unmentioned roomId
      · exact before.unmentioned other member
  · rcases Multiset.mem_cons.mp member with own | member
    · rcases fresh with rfl | rfl
      · obtain rfl := Phase.janitor.inj own
        exact ⟨nofun, fun roomId listed => absurd listed (Finset.notMem_empty roomId), nofun⟩
      · cases own
    · exact sound.informed sweep member

end Sound

/-! ## Creates and joins -/

variable {entering : Option RoomId} {roomId : RoomId} {nickname : Nickname}

/-- A create or a join between two of its steps. -/
def Handling (phase : Phase) : Prop := ∃ entering, phase = .handler entering

/-- A handler takes a step that adds nothing; it may see that a room is bound. -/
theorem handler_step {op : Op} {reply : op.Reply}
    (sound : Sound world (.handler entering ::ₘ others)) (plain : ¬ Adds op)
    (step : World.exec op world reply after) :
    Sound after ((Phase.handler entering).advance op reply ::ₘ others) ∧
      Handling ((Phase.handler entering).advance op reply) := by
  have shrinks := shrinks_of_not_adds step plain
  cases op with
  | newUuid => exact absurd trivial plain
  | redis command =>
      cases command with
      | «exists» key =>
          cases key with
          | session => exact ⟨sound.stay shrinks, _, rfl⟩
          | binding roomId =>
              obtain ⟨bound, redis, ⟨found, same⟩, rfl, rfl⟩ := step
              obtain rfl : redis = world.redis := same
              refine ⟨?_, _, rfl⟩
              cases bound with
              | false => exact sound
              | true =>
                  have present : roomId ∈ world.redis.bindings :=
                    Finmap.mem_iff.mpr (Option.isSome_iff_exists.mp found.symm)
                  refine sound.move shrinks (fun query own => ?_) nofun nofun
                  obtain rfl : roomId = query := Option.some.inj own
                  exact ⟨sound.bindings roomId present, sound.open_of_used (.inl present)⟩
      | _ => exact ⟨sound.stay shrinks, _, rfl⟩
  | _ => exact ⟨sound.stay shrinks, _, rfl⟩

/-- A part of a handler that adds nothing. -/
theorem handler_safe {α : Type} {program : Call α} (only : program.Only fun op => ¬ Adds op)
    {phase : Phase} (handling : Handling phase) :
    outline.Safe (fun last _ => Handling last) phase program := by
  refine Outline.Safe.of_steps ?_ only handling
  intro op phase plain handling state others sound _
  obtain ⟨entering, rfl⟩ := handling
  exact ⟨trivial, fun reply after effect => handler_step sound plain effect.1⟩

/-- The steps that handlers share add nothing. -/
theorem serves (state : State) (connection : ConnectionId) :
    Serves state connection fun op => ¬ Adds op where
  reads command reads := by
    cases command with
    | sadd | assignRoomToSfu | hset => exact reads.elim
    | _ => exact id
  clock := id
  fuel := id
  recalls := id
  remembers _ _ := id
  answers _ := id
  sends _ _ := id
  peers _ _ := id
  registers _ _ _ := id
  sessions _ := id
  creates _ _ _ := id
  deletes _ _ _ _ := id
  removes _ _ := id
  clears _ := id
  unbinds _ := id
  scores _ _ := id
  records _ _ := id

/-- A step that adds nothing, asserts nothing and leaves the run in its phase. -/
structure Still (phase : Phase) (op : Op) : Prop where
  plain : ¬ Adds op
  silent : ∀ state, outline.asserts state phase op
  fixed : ∀ reply, phase.advance op reply = phase

/-- A step that concerns no sweep may be taken at any time. -/
theorem inert_of_still {op : Op} (still : Still phase op) : outline.Inert phase op where
  asserts := still.silent
  keeps _ _ _ _ sound effect := Sound.stay sound (shrinks_of_not_adds effect.1 still.plain)
  still := still.fixed

/-- So may a program of such steps. -/
theorem safe_of_still {α : Type} {program : Call α} (only : program.Only (Still phase)) :
    outline.Safe (fun last _ => last = phase) phase program :=
  Outline.Safe.of_only (only.mono fun _ => inert_of_still)

/-- A handler adds a member only to a room that is bound or its own. -/
theorem joinRoom_safe {phase : Phase} (handling : Handling phase) :
    outline.Safe (fun last _ => Handling last) phase (joinRoom roomId nickname).run := by
  obtain ⟨entering, rfl⟩ := handling
  refine Threads.safe_redis fun world _ others sound _ => ⟨trivial, ?_⟩
  intro bound redis effect _
  have step : World.exec (.redis (.exists (.binding roomId))) world (.ok bound)
      { world with redis } := ⟨bound, redis, effect, rfl, rfl⟩
  refine ⟨(handler_step sound id step).1, ?_⟩
  cases bound with
  | false => exact ⟨entering, rfl⟩
  | true =>
      change outline.Safe _ (.handler (some roomId)) _
      refine Threads.safe_redis fun world _ others sound _ => ⟨trivial, ?_⟩
      intro alreadyTaken redis effect _
      obtain ⟨-, rfl⟩ := effect
      refine ⟨sound, ?_⟩
      cases alreadyTaken with
      | true => exact ⟨_, rfl⟩
      | false =>
          refine Threads.safe_redis fun world _ others sound admitted => ⟨trivial, ?_⟩
          intro _ redis effect _
          obtain rfl : redis = _ := effect
          refine ⟨Sound.add sound admitted, ?_⟩
          refine handler_safe ?_ ⟨_, rfl⟩
          exact Program.Only.except_bind (redisCommand_only id) fun _ => trivial

/-- Entering a room adds its members that way. -/
theorem enterRoom_safe {phase : Phase} (handling : Handling phase) (state : State)
    (connection : ConnectionId) (sfuAddr : Address) :
    outline.Safe (fun last _ => Handling last) phase
      (enterRoom state sfuAddr roomId nickname).run := by
  have shared := serves state connection
  refine Outline.Safe.except_bind (Outline.Safe.adapt ((joinRoom_safe handling).mono ?_))
  intro phase joined handling
  cases joined with
  | error error => exact handling
  | ok participants =>
      refine handler_safe ?_ handling
      refine (Program.Only.lift (shared.ensurePeer _ _ _)).except_bind fun created => ?_
      cases created with
      | ok => trivial
      | error error =>
          exact (Program.Only.lift (shared.undoJoin _ _)).except_bind fun _ => trivial

/-- So does opening one. -/
theorem openRoom_safe {phase : Phase} (handling : Handling phase) (state : State)
    (connection : ConnectionId) (sfuAddr : Address) :
    outline.Safe (fun last _ => Handling last) phase
      (openRoom state sfuAddr roomId nickname).run := by
  have shared := serves state connection
  refine Outline.Safe.except_bind (Outline.Safe.lift ((joinRoom_safe handling).mono ?_))
  intro phase joined handling
  cases joined with
  | error error =>
      refine handler_safe ?_ handling
      exact (Program.Only.lift (shared.undoBinding _)).except_bind fun _ => trivial
  | ok participants =>
      refine handler_safe ?_ handling
      refine (Program.Only.lift (shared.ensurePeer _ _ _)).except_bind fun created => ?_
      cases created with
      | ok => trivial
      | error error =>
          refine (Program.Only.lift (shared.undoJoin _ _)).except_bind fun _ => ?_
          exact (Program.Only.lift (shared.undoBinding _)).except_bind fun _ => trivial

/-- A join adds members to bound rooms only. -/
theorem handleJoinLocked_safe (state : State) (connection : ConnectionId)
    (sessionId : SessionId) (roomId : RoomId) :
    outline.Safe (fun last _ => Handling last) (.handler none)
      (handleJoinLocked state connection sessionId roomId).run := by
  have shared := serves state connection
  refine Outline.Safe.except_bind ((handler_safe (shared.admitJoin _ _) ⟨_, rfl⟩).mono ?_)
  intro phase session handling
  cases session with
  | error error => exact handling
  | ok session =>
      refine Outline.Safe.except_bind ((handler_safe (shared.joinTarget _) handling).mono ?_)
      intro phase sfuAddr handling
      cases sfuAddr with
      | error error => exact handling
      | ok sfuAddr =>
          refine Outline.Safe.except_bind ((enterRoom_safe handling state connection _).mono ?_)
          intro phase participants handling
          cases participants with
          | error error => exact handling
          | ok participants =>
              refine handler_safe ?_ handling
              refine (shared.recordRoom id).except_bind fun _ => ?_
              refine (shared.sendMessage _).except_bind fun _ => ?_
              refine (Program.Only.lift (shared.register _)).except_bind fun _ => ?_
              exact Program.Only.lift (shared.announce _ _ _)

/-- A create binds the room it has drawn, if the script assigns an SFU. -/
theorem assignRoom_safe (state : State) (roomId : RoomId) :
    outline.Safe (fun last _ => Handling last) (.drawn roomId)
      (redis (assignRoomToLeastLoadedSfu roomId state.config.publicNodeId
        state.config.signalingPublicHost state.config.signalingPublicPort)).run := by
  refine Outline.Safe.adapt (Outline.Safe.inert ?_ fun _ now _ _ => ?_)
  · refine inert_of_still ?_
    exact ⟨id, fun _ => trivial, fun _ => rfl⟩
  refine Threads.safe_redis fun world _ others sound _ => ⟨trivial, ?_⟩
  intro reply redis effect _
  refine ⟨?_, none, rfl⟩
  rcases Redis.exec_assign effect with same | ⟨best, -, -, rfl⟩
  · obtain rfl : redis = world.redis := same
    refine Sound.move sound (.of_eq rfl rfl subset_rfl) ?_ nofun nofun
    exact fun query mentions => nomatch mentions
  · exact Sound.bind sound

/-- A create adds the first member of a room it has bound. -/
theorem handleCreateLocked_safe (state : State) (connection : ConnectionId)
    (sessionId : SessionId) :
    outline.Safe (fun last _ => Handling last) (.handler none)
      (handleCreateLocked state connection sessionId).run := by
  have shared := serves state connection
  rw [handleCreateLocked_eq]
  refine Outline.Safe.except_bind ((handler_safe (shared.admitCreate _) ⟨_, rfl⟩).mono ?_)
  intro phase session handling
  cases session with
  | error error => exact handling
  | ok session =>
      obtain ⟨entering, rfl⟩ := handling
      refine Threads.safe_step fun world _ others sound _ => ⟨trivial, ?_⟩
      intro roomId after effect _
      obtain ⟨⟨fresh, -⟩, rfl⟩ := effect
      refine ⟨Sound.draw sound fresh, ?_⟩
      refine Outline.Safe.except_bind ((assignRoom_safe state roomId).mono ?_)
      intro phase assignment handling
      cases assignment with
      | error error => exact handling
      | ok assignment =>
          refine Outline.Safe.except_bind ((openRoom_safe handling state connection _).mono ?_)
          intro phase opened handling
          cases opened with
          | error error => exact handling
          | ok _ =>
              refine handler_safe ?_ handling
              refine (shared.recordRoom id).except_bind fun _ => ?_
              refine (shared.sendMessage _).except_bind fun _ => ?_
              exact Program.Only.lift (shared.register _)

/-! ## The iteration -/

variable {sweep : Sweep} {alive : List NodeId} {found : Finset RoomId} {unbound : Option RoomId}

/-- The sweep begins with the nodes that are alive. -/
theorem aliveSignalingNodes_safe (staleSecs : ℕ) :
    outline.Safe (fun last value => ∃ alive, value = .ok alive ∧ last = .janitor { alive })
      (.janitor {}) (aliveSignalingNodes staleSecs).run := by
  refine Outline.Safe.inert (inert_of_still ?_) fun _ now _ _ => ?_
  · exact ⟨id, fun _ => trivial, fun _ => rfl⟩
  refine Threads.safe_redis_last fun world _ others sound _ => ⟨trivial, ?_⟩
  intro alive redis effect _
  obtain ⟨-, rfl⟩ := effect
  refine ⟨Sound.move sound (.of_eq rfl rfl subset_rfl) (fun roomId mentions => ?_) nofun ?_,
    alive, rfl, rfl⟩
  · exact absurd mentions (Phase.not_mentions_blank alive roomId)
  · intro sweep own
    obtain rfl := Phase.janitor.inj own
    exact ⟨nofun, fun roomId listed => absurd listed (Finset.notMem_empty roomId), nofun⟩

/-- The pages of the scan of the bindings. -/
theorem scanBindings_safe (bound : ℕ) (cursor : Cursor) (results : List RoomId) :
    outline.Safe
      (fun last value => ∃ ids : List RoomId, value = .ok ids ∧
        last = .janitor { alive, began := true, found := ids.toFinset })
      (.janitor
        { alive, began := cursor.isSome, found := results.toFinset, owed := cursor.getD ∅ })
      (scanFrom .bindings bound cursor results).run := by
  induction bound generalizing cursor results with
  | zero =>
      refine Outline.Safe.inert (inert_of_still ?_) fun _ reply _ _ => reply.elim
      exact ⟨id, fun _ => trivial, fun _ => rfl⟩
  | succ bound ih =>
      refine Threads.safe_redis fun world _ others sound _ => ⟨trivial, ?_⟩
      intro page redis effect _
      obtain ⟨⟨present, rest⟩, rfl⟩ := effect
      obtain ⟨page, next⟩ := page
      have joined : results.toFinset ∪ page.toFinset = (results ++ page).toFinset :=
        List.toFinset_append.symm
      have owed : next.getD ∅ = (cursor.map (· ∩ world.redis.bindings.keys)).getD
          world.redis.bindings.keys \ page.toFinset := by
        cases next with
        | none => exact (show _ = ∅ from rest).symm
        | some left => exact rest
      have advanced : threads.advance (Phase.janitor
          { alive, began := cursor.isSome, found := results.toFinset, owed := cursor.getD ∅ })
          (.redis (.scan .bindings cursor)) (.ok (page, next)) =
          Phase.janitor { alive, began := true, found := (results ++ page).toFinset,
                          owed := next.getD ∅ } := by
        rw [← joined]
        rfl
      rw [advanced]
      refine ⟨Sound.learn sound (.of_eq rfl rfl subset_rfl) ?_ ?_, ?_⟩
      · intro roomId mentions
        rcases mentions with covered | listed | deleted
        · rcases Finset.mem_union.mp covered with found | due
          · rw [← joined] at found
            rcases Finset.mem_union.mp found with before | now
            · exact .inl (.inl (Finset.mem_union_left _ before))
            · refine .inr (.inl (Finmap.mem_keys.mp ?_))
              exact present roomId (List.mem_toFinset.mp now)
          · rw [owed] at due
            refine .inr (.inl (Finmap.mem_keys.mp ?_))
            cases cursor with
            | none => exact (Finset.mem_sdiff.mp due).1
            | some earlier => exact (Finset.mem_inter.mp (Finset.mem_sdiff.mp due).1).2
        · exact .inl (.inr (.inl listed))
        · exact .inl (.inr (.inr deleted))
      · have informed := Sound.informed sound _ (Multiset.mem_cons_self _ _)
        refine ⟨fun _ goes roomId bound nickname member => ?_, ?_, nofun⟩
        · change roomId ∈ (results ++ page).toFinset ∪ next.getD ∅
          rw [owed, ← joined, Finset.mem_union, Finset.mem_union, Finset.mem_sdiff]
          by_cases listed : roomId ∈ page.toFinset
          · exact .inl (.inr listed)
          · cases cursor with
            | none => exact .inr ⟨Finmap.mem_keys.mpr bound, listed⟩
            | some earlier =>
                rcases Finset.mem_union.mp
                  (informed.covers rfl rfl roomId bound nickname member) with early | due
                · exact .inl (.inl early)
                · exact .inr ⟨Finset.mem_inter.mpr ⟨due, Finmap.mem_keys.mpr bound⟩, listed⟩
        · exact fun roomId listed => absurd listed (Finset.notMem_empty roomId)
      · cases next with
        | none => exact ⟨_, rfl, rfl⟩
        | some left => exact ih (some left) _

/-- An iteration after its scan of the bindings. -/
def Reclaiming (alive : List NodeId) (found : Finset RoomId) (phase : Phase) : Prop :=
  ∃ unbound, phase = .janitor { alive, began := true, found, unbound }

/-- The release of a slot concerns no member. -/
theorem decrement_still (instanceId : InstanceId) :
    (Supervisor.decrementSfuRoomLoad instanceId).run.Only (Still (.janitor sweep)) := by
  refine Supervisor.decrementSfuRoomLoad_only ?_ (fun _ => ?_) ?_ ?_ fun _ _ => ?_
  · exact ⟨id, fun _ => trivial, fun _ => rfl⟩
  · exact ⟨id, fun _ => trivial, fun _ => rfl⟩
  · exact ⟨id, fun _ => trivial, fun _ => rfl⟩
  · exact ⟨id, fun _ => trivial, fun _ => rfl⟩
  · exact ⟨id, fun _ => trivial, fun _ => rfl⟩

/-- So does the release of the slot that a binding names. -/
theorem releaseSlot_still (instanceId : Option InstanceId) :
    (releaseSlot instanceId).Only (Still (.janitor sweep)) := by
  cases instanceId with
  | none => trivial
  | some instanceId => exact logged_only (decrement_still instanceId)

/-- A room is reclaimed: when its members go, its binding is gone. -/
theorem reclaimRoom_safe {phase : Phase} (before : Reclaiming alive found phase) {roomId : RoomId}
    (scanned : roomId ∈ found) (binding : RoomBinding) :
    outline.Safe (fun last _ => Reclaiming alive found last) phase
      (reclaimRoom roomId binding) := by
  obtain ⟨unbound, rfl⟩ := before
  refine Outline.Safe.bind ((safe_of_still (releaseSlot_still _)).mono ?_)
  intro _ _ same
  subst same
  refine Outline.Safe.bind (Outline.Safe.bind (Threads.safe_redis ?_))
  intro world _ others sound _
  refine ⟨trivial, ?_⟩
  intro deleted redis effect _
  have step : World.exec (.redis (.del (.binding roomId))) world (.ok deleted)
      { world with redis } := ⟨deleted, redis, effect, rfl, rfl⟩
  have shrinks := shrinks_of_not_adds step id
  have gone : roomId ∉ redis.bindings := by
    obtain ⟨-, rfl⟩ := effect
    exact Finmap.notMem_erase_self
  have advanced : threads.advance (Phase.janitor { alive, began := true, found, unbound })
      (.redis (.del (.binding roomId))) (.ok deleted) =
      Phase.janitor { alive, began := true, found, unbound := some roomId } := rfl
  rw [advanced]
  refine ⟨Sound.learn sound shrinks (fun query mentions => ?_) ?_, ?_⟩
  · rcases mentions with covered | listed | same
    · exact .inl (.inl covered)
    · exact .inl (.inr (.inl listed))
    · obtain rfl := Option.some.inj same
      exact .inl (.inl (Finset.mem_union_left _ scanned))
  · have informed := (Sound.informed sound _ (Multiset.mem_cons_self _ _)).shrink shrinks
    refine ⟨informed.covers, informed.orphans, fun query same => ?_⟩
    exact Option.some.inj same ▸ gone
  · refine Outline.Safe.bind (Threads.safe_redis fun world _ others sound _ => ?_)
    have informed := Sound.informed sound _ (Multiset.mem_cons_self _ _)
    refine ⟨fun hash bound => ?_, fun cleared redis effect _ => ?_⟩
    · exact absurd (Finmap.mem_of_lookup_eq_some bound) (informed.unbound roomId rfl)
    · have step : World.exec (.redis (.delMembers roomId)) world (.ok cleared)
          { world with redis } := ⟨cleared, redis, effect, rfl, rfl⟩
      exact ⟨Sound.stay sound (shrinks_of_not_adds step id), _, rfl⟩

/-- A stale room is reclaimed after it was scanned. -/
theorem reclaimIfStale_safe {phase : Phase} (before : Reclaiming alive found phase)
    {roomId : RoomId} (scanned : roomId ∈ found) (nodes : List NodeId) :
    outline.Safe (fun last _ => Reclaiming alive found last) phase
      (reclaimIfStale nodes roomId).run := by
  obtain ⟨unbound, rfl⟩ := before
  have reading : (getRoomAssignment roomId).run.Only
      (Still (.janitor { alive, began := true, found, unbound })) := by
    refine Program.Only.except_bind (redisCommand_only ?_) fun _ => trivial
    exact ⟨id, fun _ => trivial, fun _ => rfl⟩
  refine Outline.Safe.except_bind ((safe_of_still reading).mono ?_)
  intro _ read same
  subst same
  rcases read with error | none | binding
  · exact ⟨_, rfl⟩
  · exact ⟨_, rfl⟩
  · change outline.Safe _ _ (if binding.ownerId = "" ∨ binding.ownerId ∈ nodes then
      return () else _ : StoreCall Unit).run
    split
    · exact ⟨_, rfl⟩
    · exact Outline.Safe.lift (reclaimRoom_safe ⟨_, rfl⟩ scanned binding)

/-- The pages of the scan of the member sets. -/
theorem scanMembers_safe (bound : ℕ) (cursor : Cursor) (results : List RoomId) :
    outline.Safe
      (fun last value => ∃ ids : List RoomId, value = .ok ids ∧ last = .janitor
        { alive, began := true, found, listed := ids.toFinset, ended := true, unbound })
      (.janitor { alive, began := true, found, listed := results.toFinset, unbound })
      (scanFrom .members bound cursor results).run := by
  induction bound generalizing cursor results with
  | zero =>
      refine Outline.Safe.inert (inert_of_still ?_) fun _ reply _ _ => reply.elim
      exact ⟨id, fun _ => trivial, fun _ => rfl⟩
  | succ bound ih =>
      refine Threads.safe_redis fun world _ others sound _ => ⟨trivial, ?_⟩
      intro page redis effect _
      obtain ⟨⟨present, -⟩, rfl⟩ := effect
      obtain ⟨page, next⟩ := page
      have joined : results.toFinset ∪ page.toFinset = (results ++ page).toFinset :=
        List.toFinset_append.symm
      have advanced : threads.advance (Phase.janitor
          { alive, began := true, found, listed := results.toFinset, unbound })
          (.redis (.scan .members cursor)) (.ok (page, next)) =
          Phase.janitor { alive, began := true, found, listed := (results ++ page).toFinset,
                          ended := next.isNone, unbound } := by
        rw [← joined]
        rfl
      have used {roomId : RoomId} (listed : roomId ∈ page) :
          ∃ nickname, (roomId, nickname) ∈ world.redis.members := by
        obtain ⟨⟨room, nickname⟩, member, rfl⟩ := Finset.mem_image.mp (present roomId listed)
        exact ⟨nickname, member⟩
      rw [advanced]
      refine ⟨Sound.learn sound (.of_eq rfl rfl subset_rfl) ?_ ?_, ?_⟩
      · intro roomId mentions
        rcases mentions with covered | listed | deleted
        · exact .inl (.inl covered)
        · rw [← joined] at listed
          rcases Finset.mem_union.mp listed with before | now
          · exact .inl (.inr (.inl before))
          · exact .inr (.inr (used (List.mem_toFinset.mp now)))
        · exact .inl (.inr (.inr deleted))
      · have informed := Sound.informed sound _ (Multiset.mem_cons_self _ _)
        refine ⟨fun _ _ => informed.covers rfl rfl, fun roomId listed uncovered bound => ?_,
          informed.unbound⟩
        rw [← joined] at listed
        rcases Finset.mem_union.mp listed with before | now
        · exact informed.orphans roomId before uncovered bound
        · obtain ⟨nickname, member⟩ := used (List.mem_toFinset.mp now)
          exact uncovered (informed.covers rfl rfl roomId bound nickname member)
      · cases next with
        | none => exact ⟨_, rfl, rfl⟩
        | some left => exact ih (some left) _

/-- A member set is deleted only if its room was not among the bindings scanned. -/
theorem deleteIfOrphan_safe {bindingIds listed : List RoomId} {roomId : RoomId}
    (scanned : roomId ∈ listed) :
    outline.Safe (fun last _ => last = .janitor
        { alive, began := true, found := bindingIds.toFinset, listed := listed.toFinset,
          ended := true, unbound })
      (.janitor
        { alive, began := true, found := bindingIds.toFinset, listed := listed.toFinset,
          ended := true, unbound })
      (deleteIfOrphan bindingIds roomId).run := by
  unfold deleteIfOrphan
  split
  · rfl
  · rename_i orphan
    refine Outline.Safe.lift (Outline.Safe.bind (Threads.safe_redis ?_))
    intro world _ others sound _
    have informed := Sound.informed sound _ (Multiset.mem_cons_self _ _)
    refine ⟨fun hash bound => ?_, fun cleared redis effect _ => ?_⟩
    · refine absurd (Finmap.mem_of_lookup_eq_some bound)
        (informed.orphans roomId (List.mem_toFinset.mpr scanned) fun covered => ?_)
      rcases Finset.mem_union.mp covered with found | owed
      · exact orphan (List.mem_toFinset.mp found)
      · exact Finset.notMem_empty roomId owed
    · have step : World.exec (.redis (.delMembers roomId)) world (.ok cleared)
          { world with redis } := ⟨cleared, redis, effect, rfl, rfl⟩
      exact ⟨Sound.stay sound (shrinks_of_not_adds step id), rfl⟩

/-- What an iteration does after its sweep. -/
theorem rest_still (config : Supervisor.Config) (nodes : List NodeId) (now : ℤ) :
    (do
      let loadMembers ← signalingLoadMembers
      loadMembers.forM (removeLoadIfStale nodes)
      let sessionIds ← scanSignalingSessionIds config.loopBound
      sessionIds.forM (deleteSessionIfStale nodes)
      logged (removeSignalingNodeHeartbeatsBelow (now - config.signalingStaleTimeoutSecs)) :
      StoreCall Unit).run.Only (Still (.janitor sweep)) := by
  refine Program.Only.except_bind ((redisCommand_only ?_).except_bind fun _ => trivial)
    fun loadMembers => ?_
  · exact ⟨id, fun _ => trivial, fun _ => rfl⟩
  refine Program.Only.except_bind (Program.Only.except_forM fun nodeId _ => ?_) fun _ => ?_
  · refine removeLoadIfStale_only ?_
    exact ⟨id, fun _ => trivial, fun _ => rfl⟩
  refine (scanFrom_only (fun _ => ?_) ?_).except_bind fun sessionIds => ?_
  · exact ⟨id, fun _ => trivial, fun _ => rfl⟩
  · exact ⟨id, fun _ => trivial, fun _ => rfl⟩
  refine Program.Only.except_bind (Program.Only.except_forM fun nodeId _ => ?_) fun _ => ?_
  · refine deleteSessionIfStale_only ?_ ?_
    · exact ⟨id, fun _ => trivial, fun _ => rfl⟩
    · exact ⟨id, fun _ => trivial, fun _ => rfl⟩
  refine Program.Only.lift (logged_only (redisCommand_only ?_))
  exact ⟨id, fun _ => trivial, fun _ => rfl⟩

/-- An iteration of the janitor deletes only what it has found deserted. -/
theorem runJanitorIteration_safe (config : Supervisor.Config) :
    outline.Safe (fun _ _ => True) (.janitor {}) (runJanitorIteration config).run := by
  refine Outline.Safe.except_bind ((aliveSignalingNodes_safe _).mono ?_)
  intro _ _ read
  obtain ⟨alive, rfl, rfl⟩ := read
  refine Outline.Safe.except_bind (Outline.Safe.lift ?_)
  refine Outline.Safe.inert (inert_of_still ?_) fun _ now _ _ => ?_
  · exact ⟨id, fun _ => trivial, fun _ => rfl⟩
  refine Outline.Safe.except_bind ((scanBindings_safe config.loopBound none []).mono ?_)
  intro _ _ scanned
  obtain ⟨bindingIds, rfl, rfl⟩ := scanned
  have loop : outline.Safe (fun last _ => Reclaiming alive bindingIds.toFinset last)
      (.janitor { alive, began := true, found := bindingIds.toFinset })
      (bindingIds.forM (reclaimIfStale alive)).run := by
    refine Outline.Safe.except_forM (fun roomId member phase between => ?_) ⟨none, rfl⟩
    exact reclaimIfStale_safe between (List.mem_toFinset.mpr member) alive
  refine Outline.Safe.except_bind (loop.mono fun phase reclaimed between => ?_)
  obtain ⟨unbound, rfl⟩ := between
  cases reclaimed with
  | error error => trivial
  | ok _ =>
      refine Outline.Safe.except_bind ((scanMembers_safe config.loopBound none []).mono ?_)
      intro _ _ scanned
      obtain ⟨rooms, rfl, rfl⟩ := scanned
      have sweeps : outline.Safe (fun last _ => last = .janitor
            { alive, began := true, found := bindingIds.toFinset, listed := rooms.toFinset,
              ended := true, unbound })
          (.janitor
            { alive, began := true, found := bindingIds.toFinset, listed := rooms.toFinset,
              ended := true, unbound })
          (rooms.forM (deleteIfOrphan bindingIds)).run := by
        refine Outline.Safe.except_forM (fun roomId member phase same => ?_) rfl
        subst same
        exact deleteIfOrphan_safe member
      refine Outline.Safe.except_bind (sweeps.mono fun phase swept same => ?_)
      subst same
      cases swept with
      | error error => trivial
      | ok _ => exact (safe_of_still (rest_still config alive now)).mono fun _ _ _ => trivial

/-! ## Runs -/

/-- What happens besides keeps the invariant. -/
theorem stable : outline.Stable where
  start := by
    intro before others phase program after started sound
    obtain ⟨rfl, programs⟩ := started
    have ends {ε : Type} {program : Call (Except ε Unit)}
        (safe : outline.Safe (fun _ _ => True) phase program) :
        outline.Safe outline.MayFinish phase (Functor.mapConst () program) :=
      Outline.Safe.bind (safe.mono fun _ _ _ _ _ sound => Sound.finish sound)
    rcases programs with ⟨config, rfl, rfl⟩ | ⟨state, connection, sessionId, rfl, rfl⟩ |
      ⟨state, connection, sessionId, roomId, rfl, rfl⟩
    · exact ⟨Sound.start sound (.inl rfl), ends (runJanitorIteration_safe config)⟩
    · refine ⟨Sound.start sound (.inr rfl), ends ?_⟩
      exact (handleCreateLocked_safe state connection sessionId).mono fun _ _ _ => trivial
    · refine ⟨Sound.start sound (.inr rfl), ends ?_⟩
      exact (handleJoinLocked_safe state connection sessionId roomId).mono fun _ _ _ => trivial
  discard _ _ _ never := never.elim
  environment := by
    intro before others after changed sound
    obtain ⟨world, _⟩ := before
    obtain ⟨after, _⟩ := after
    obtain ⟨time, -, elapsed⟩ := changed
    obtain rfl : after = world.elapse time := elapsed
    have sound : Sound world others := sound
    exact ⟨sound.bindings, sound.members, sound.mentioned,
      fun roomId rest split => ⟨(sound.secret roomId rest split).unbound,
        (sound.secret roomId rest split).empty, (sound.secret roomId rest split).unmentioned⟩,
      fun sweep member => ⟨(sound.informed sweep member).covers,
        (sound.informed sweep member).orphans, (sound.informed sweep member).unbound⟩⟩

/-- Every room in the store has been drawn. -/
def Drawn (world : World) : Prop :=
  (∀ roomId ∈ world.redis.bindings, roomId ∈ world.issued) ∧
    ∀ member ∈ world.redis.members, member.1 ∈ world.issued

/-- No run is in progress. -/
def begin (world : World) : threads.system.Pool := ⟨(world, ()), []⟩

/-- The deployment in a pool. -/
def deployment (pool : threads.system.Pool) : World := pool.state.1

/-- An iteration is about to delete the members of a room. -/
def Deletes (pool : threads.system.Pool) (sweep : Sweep) (roomId : RoomId) : Prop :=
  ∃ before next after, pool.threads =
    before ++ ⟨Phase.janitor sweep, .call (.redis (.delMembers roomId)) next⟩ :: after

/-- **An iteration deletes only the members of rooms without a living owner**, in every
run in which no member enters a room that the scans of an iteration would miss. -/
theorem deserted_of_deletes {world : World} (drawn : Drawn world) {pool : threads.system.Pool}
    (run : Reaches guard (begin world) pool) {sweep : Sweep} {roomId : RoomId}
    (deletes : Deletes pool sweep roomId) : Deserted sweep.alive (deployment pool) roomId := by
  have initial : outline.Holds (begin world) := .of_quiescent
    ⟨drawn.1, fun roomId nickname member => drawn.2 (roomId, nickname) member,
      fun _ member => absurd member (Multiset.notMem_zero _),
      fun _ _ split => absurd split.symm (Multiset.cons_ne_zero),
      fun _ member => absurd member (Multiset.notMem_zero _)⟩
  obtain ⟨before, next, after, same⟩ := deletes
  obtain ⟨state, _⟩ := pool
  obtain rfl := same
  exact (initial.reaches stable run).asserted trivial

/-! ## A room created between the scans -/

instance (world : World) (op : Op) (reply : op.Reply) :
    Decidable (threads.assumed world op reply) := inferInstanceAs (Decidable True)

/-- The test of `Allowed`. -/
def allows (world : World) : Op → Multiset Phase → Bool
  | .redis (.sadd roomId _), others =>
      decide (roomId ∈ world.redis.bindings → ∀ other ∈ others, other.Admits roomId)
  | _, _ => true

/-- The test computes the condition. -/
theorem allows_iff {world : World} {op : Op} {others : Multiset Phase} :
    allows world op others = true ↔ Allowed world op others := by
  unfold allows Allowed
  split
  · exact decide_eq_true_iff
  · simp

instance decidableAllowed (world : World) (op : Op) (others : Multiset Phase) :
    Decidable (Allowed world op others) :=
  decidable_of_iff _ allows_iff

instance : ∀ state phase op others, Decidable (guard state phase op others) :=
  fun state _ op others => decidableAllowed state.1 op others

/-- A node that was just seen, with a ready SFU and a session that may create a room,
and the members of a room that is gone. -/
def hosting : World :=
  { World.fresh with
    issued := {"room-0"}
    redis := { Redis.empty.zadd .signalingNodes "127.0.0.1:8080" 0 with
      members := {("room-0", "alice")}
      instances := (∅ : Map InstanceId SfuInstance).insert "sfu-1" sampleSfu
      sessions := (∅ : Map SessionId SessionHash).insert "session-1"
        ⟨Hash.set none "nickname" "bob", none⟩ }
    connections := fun _ =>
      { capacity := 256
        context := { sessionId := some "session-1", allowedIntent := some "create" } } }

/-- An iteration and a create. -/
def sweepAndCreate : List threads.system.Thread :=
  [⟨Phase.janitor {}, logged (runJanitorIteration ⟨[], 30, 1⟩)⟩,
    ⟨Phase.handler none, Functor.mapConst () (handleCreateLocked sampleNode 0 "session-1").run⟩]

/-- A sweep and a create may start together. -/
theorem reaches_sweepAndCreate {guard : threads.system.Guard} :
    Reaches guard (begin hosting) ⟨(hosting, ()), sweepAndCreate⟩ := by
  refine reaches_start fun thread member others => ?_
  rcases List.mem_pair.mp member with rfl | rfl
  · exact ⟨rfl, .inl ⟨_, rfl, rfl⟩⟩
  · exact ⟨rfl, .inr (.inl ⟨_, _, _, rfl, rfl⟩)⟩

/-- The first run is about to delete the members of a room. -/
def deletesFirst (test : Sweep → RoomId → Bool) (pool : threads.system.Pool) : Bool :=
  match pool.threads with
  | ⟨.janitor sweep, .call (.redis (.delMembers roomId)) _⟩ :: _ => test sweep roomId
  | _ => false

/-- The test finds the first deletion. -/
theorem deletes_of_first {test : Sweep → RoomId → Bool} {pool : threads.system.Pool}
    (passed : deletesFirst test pool = true) :
    ∃ sweep roomId, Deletes pool sweep roomId ∧ test sweep roomId = true := by
  unfold deletesFirst at passed
  split at passed
  · rename_i sweep roomId next after same
    exact ⟨sweep, roomId, ⟨[], next, after, same⟩, passed⟩
  · cases passed

/-- The reading of the live nodes and the scan of the bindings. -/
def firstScan (rooms : List RoomId) : List (ℕ × Hint) :=
  [(0, {}), (0, { names := ["127.0.0.1:8080"] }), (0, {}), (0, { names := rooms })]

/-- The create up to its first member. -/
def creating : List (ℕ × Hint) :=
  turns 1 6 ++ (1, { names := ["room-1"] }) :: (1, {}) :: (1, { names := ["sfu-1"] }) :: turns 1 3

/-- The ids of the sample world have been drawn. -/
theorem drawn_hosting : Drawn hosting := by
  refine ⟨fun roomId bound => absurd bound Finmap.notMem_empty, fun member listed => ?_⟩
  rw [Finset.mem_singleton.mp listed]
  exact Finset.mem_singleton_self _

/-- The first member enters before the scan, and only the members of the other room go. -/
theorem deserted_of_deletes_first : ∃ pool sweep roomId,
    Reaches guard (begin hosting) pool ∧ Deletes pool sweep roomId ∧
      Deserted sweep.alive (deployment pool) roomId := by
  have replayed : (threads.sampler.replay guard
      (creating ++ firstScan ["room-1"] ++ turns 0 1 ++ [(0, { names := ["room-0", "room-1"] })])
      ⟨(hosting, ()), sweepAndCreate⟩).any (deletesFirst fun _ _ => true) = true := by
    decide +kernel
  obtain ⟨pool, run, passed⟩ := Sampler.exists_of_replay replayed
  obtain ⟨sweep, roomId, deletes, -⟩ := deletes_of_first passed
  exact ⟨pool, sweep, roomId, reaches_sweepAndCreate.trans run, deletes,
    deserted_of_deletes drawn_hosting (reaches_sweepAndCreate.trans run) deletes⟩

/-- **The members of a live room are deleted**: a room is created between the two scans. -/
theorem live_room_swept : Drawn hosting ∧ ∃ pool sweep roomId,
    Reaches unguarded (begin hosting) pool ∧ Deletes pool sweep roomId ∧
      ((deployment pool).redis.roomMembers roomId).Nonempty ∧
      ¬ Deserted sweep.alive (deployment pool) roomId := by
  have replayed : (threads.sampler.replay unguarded
      (firstScan [] ++ creating ++ [(0, { names := ["room-1", "room-0"] })])
      ⟨(hosting, ()), sweepAndCreate⟩).any (fun pool => deletesFirst (fun sweep roomId =>
        decide (((deployment pool).redis.roomMembers roomId).Nonempty ∧
          ¬ Deserted sweep.alive (deployment pool) roomId)) pool) = true := by
    decide +kernel
  obtain ⟨pool, run, passed⟩ := Sampler.exists_of_replay replayed
  obtain ⟨sweep, roomId, deletes, held⟩ := deletes_of_first passed
  obtain ⟨occupied, owned⟩ := of_decide_eq_true held
  exact ⟨drawn_hosting, pool, sweep, roomId, reaches_sweepAndCreate.trans run, deletes, occupied,
    owned⟩

end Callifornia.OrphanSweep
