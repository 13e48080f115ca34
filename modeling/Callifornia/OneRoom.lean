import Callifornia.Names
import Callifornia.Threads

/-! # One session in one room

Several connections may speak for one session. A request to enter a room first checks that the
session is in none and records the new room last; the lock it holds in between may expire, and
leaving takes no lock. What a request writes into the session hash may replace a room that the
nickname is a member of.
-/

namespace Callifornia.OneRoom

open Concurrency Concurrency.Program Concurrency.System FiniteMap Store Signaling

/-- **The nickname of a session is a member of at most one room**, the one in its hash. -/
structure InOneRoom (sessionId : SessionId) (roster : Roster) : Prop where
  unique : ∀ first second, (first, roster.named sessionId) ∈ roster.members →
    (second, roster.named sessionId) ∈ roster.members → first = second
  recorded : ∀ roomId, (roomId, roster.named sessionId) ∈ roster.members →
    roster.room sessionId = some roomId

/-- A nickname that is a member only where its session says is in at most one room. -/
theorem inOneRoom_of_recorded {sessionId : SessionId} {roster : Roster}
    (recorded : ∀ roomId, (roomId, roster.named sessionId) ∈ roster.members →
      roster.room sessionId = some roomId) : InOneRoom sessionId roster where
  unique first second one two :=
    Option.some.inj ((recorded first one).symm.trans (recorded second two))
  recorded := recorded

/-! ## The requests of a session -/

/-- What a request has done so far. -/
inductive Phase
  | idle
  /-- It has added the nickname to the room, and has yet to record it or take it out again. -/
  | entering (roomId : RoomId) (nickname : Nickname)
  deriving DecidableEq

def Phase.advance : Phase → (op : Op) → op.Reply → Phase
  | _, .redis (.sadd roomId nickname), _ => .entering roomId nickname
  | .entering .., .redis (.srem ..), _ => .idle
  | .entering .., .redis (.hset (.session _) ..), _ => .idle
  | phase, _, _ => phase

/-- A request to create, join or leave a room for the session. -/
def Asks (sessionId : SessionId) : ClientMessage → Prop
  | .create asked | .join asked _ | .leave asked .. => asked = sessionId
  | _ => False

/-- What happens besides: time passes, or others act and leave the session's lock alone. The
session stays, and its nickname may be taken out of rooms. -/
structure Elsewhere (sessionId : SessionId) (nickname : Nickname) (before after : World) :
    Prop where
  session : after.redis.hash (.session sessionId) = before.redis.hash (.session sessionId)
  members : ∀ roomId, (roomId, nickname) ∈ after.redis.members →
    (roomId, nickname) ∈ before.redis.members
  lock : (∃ time, before.now ≤ time ∧ after = before.elapse time) ∨ after.now = before.now ∧
    after.redis.strings.lookup (.sessionLock sessionId) =
      before.redis.strings.lookup (.sessionLock sessionId)

/-- The requests of a session, on any connections and nodes. -/
def threads (sessionId : SessionId) (nickname : Nickname) : Threads where
  Phase := Phase
  Ghost := Unit
  Result := Bool
  advance := Phase.advance
  start before _ phase program after := after = before ∧ phase = .idle ∧
    ∃ state connection jwt request, Asks sessionId request ∧
      program = handleText state connection jwt request
  environment before _ after := Elsewhere sessionId nickname before.1 after.1

section Requests

variable {sessionId : SessionId} {nickname : Nickname}

/-- A room is overwritten in the session hash only if the nickname is no member of it, or is just
being added to it. -/
def Allowed (sessionId : SessionId) (nickname : Nickname) (world : World)
    (others : Multiset Phase) : Op → Prop
  | .redis (.hset (.session asked) _ value) => asked = sessionId →
      ∀ roomId ∈ world.roster.room sessionId, roomId ≠ value →
        (roomId, nickname) ∈ world.roster.members → Phase.entering roomId nickname ∈ others
  | _ => True

def guard (sessionId : SessionId) (nickname : Nickname) :
    (threads sessionId nickname).system.Guard :=
  fun state _ op others => Allowed sessionId nickname state.1 others op

/-- Every room the nickname is a member of is recorded, or about to be. -/
structure Accounted (sessionId : SessionId) (nickname : Nickname) (roster : Roster)
    (phases : Multiset Phase) : Prop where
  named : roster.named sessionId = nickname
  member : ∀ roomId, (roomId, nickname) ∈ roster.members →
    roster.room sessionId = some roomId ∨ Phase.entering roomId nickname ∈ phases

def outline (sessionId : SessionId) (nickname : Nickname) :
    Outline (threads sessionId nickname).system where
  guard := guard sessionId nickname
  inv state phases := Accounted sessionId nickname state.1.roster phases
  asserts _ _ _ := True

/-- Where nothing is in progress, the session is in one room. -/
theorem Accounted.inOneRoom {roster : Roster} (accounted : Accounted sessionId nickname roster 0) :
    InOneRoom sessionId roster := by
  refine inOneRoom_of_recorded fun roomId member => ?_
  rw [accounted.named] at member
  exact (accounted.member roomId member).resolve_right (Multiset.notMem_zero _)

/-! ## Each step accounts for the members -/

section Steps

variable {before after : Roster} {phase : Phase} {phases others : Multiset Phase} {roomId : RoomId}

/-- The session keeps its hash, and the nickname is in no new room. -/
theorem Accounted.shrink (accounted : Accounted sessionId nickname before phases)
    (same : after.sessions sessionId = before.sessions sessionId)
    (fewer : ∀ roomId, (roomId, nickname) ∈ after.members → (roomId, nickname) ∈ before.members) :
    Accounted sessionId nickname after phases where
  named := by
    rw [Roster.named, same]
    exact accounted.named
  member roomId member := by
    rw [Roster.room, same]
    exact accounted.member roomId (fewer roomId member)

/-- A member that is being added is accounted for. -/
theorem Accounted.add (accounted : Accounted sessionId nickname before (.idle ::ₘ others))
    (roomId : RoomId) (name : Nickname) :
    Accounted sessionId nickname
      { before with members := insert (roomId, name) before.members }
      (.entering roomId name ::ₘ others) where
  named := accounted.named
  member other member := by
    rcases Finset.mem_insert.mp member with same | member
    · cases same
      exact .inr (Multiset.mem_cons_self _ _)
    · refine (accounted.member other member).imp_right fun entering => ?_
      exact Multiset.mem_cons_of_mem ((Multiset.mem_cons.mp entering).resolve_left nofun)

/-- A member that is taken out again needs not be recorded. -/
theorem Accounted.remove {name : Nickname}
    (accounted : Accounted sessionId nickname before (.entering roomId name ::ₘ others)) :
    Accounted sessionId nickname { before with members := before.members.erase (roomId, name) }
      (.idle ::ₘ others) where
  named := accounted.named
  member other member := by
    obtain ⟨apart, member⟩ := Finset.mem_erase.mp member
    refine (accounted.member other member).imp_right fun entering => ?_
    refine Multiset.mem_cons_of_mem ((Multiset.mem_cons.mp entering).resolve_left fun same => ?_)
    cases same
    exact apart rfl

/-- A room is written into the session hash. -/
theorem Accounted.record (accounted : Accounted sessionId nickname before (phase ::ₘ others))
    (allowed : ∀ other ∈ before.room sessionId, other ≠ roomId →
      (other, nickname) ∈ before.members → Phase.entering other nickname ∈ others)
    (own : ∀ other, phase = .entering other nickname → other = roomId ∧ roomId ≠ "") :
    Accounted sessionId nickname (before.hset sessionId "room_id" roomId) (.idle ::ₘ others) where
  named := by
    rw [Roster.named_hset (by decide)]
    exact accounted.named
  member other member := by
    have room : (before.hset sessionId "room_id" roomId).room sessionId =
        (some roomId).filter (· ≠ "") := by
      rw [Roster.room, Roster.get_hset, if_pos ⟨rfl, rfl⟩]
    have recorded (same : other = roomId) (nonempty : roomId ≠ "") :
        (before.hset sessionId "room_id" roomId).room sessionId = some other := by
      rw [room, same]
      exact Option.filter_eq_some_iff.mpr ⟨rfl, decide_eq_true nonempty⟩
    rcases accounted.member other member with here | entering
    · by_cases same : other = roomId
      · have nonempty := (Option.filter_eq_some_iff.mp here).2
        rw [same] at nonempty
        exact .inl (recorded same (of_decide_eq_true nonempty))
      · exact .inr (Multiset.mem_cons_of_mem (allowed other here same member))
    · rcases Multiset.mem_cons.mp entering with same | entering
      · obtain ⟨same, nonempty⟩ := own other same.symm
        exact .inl (recorded same nonempty)
      · exact .inr (Multiset.mem_cons_of_mem entering)

end Steps

/-- The operation adds no member and writes no session. -/
def Idle (op : Op) : Prop :=
  ¬ op.IsRedis Command.WritesSessions ∧ ∀ roomId nickname, op ≠ .redis (.sadd roomId nickname)

/-- Nor does it take a member out. -/
def Calm (op : Op) : Prop :=
  ¬ op.IsRedis Command.WritesSessions ∧ ¬ op.IsRedis Command.WritesMembers

/-- What writes no session leaves the session of the roster. -/
theorem sessions_of_unwritten {op : Op} {before after : World} {reply : op.Reply}
    (step : World.exec op before reply after) (unwritten : ¬ op.IsRedis Command.WritesSessions) :
    after.roster.sessions sessionId = before.roster.sessions sessionId := by
  have same := (World.exec_keepsRedis step).sessions unwritten
  simp only [World.roster, Redis.hash, same]

/-- Only adding a member makes one. -/
theorem members_of_unadded {op : Op} {before after : World} {reply : op.Reply}
    (step : World.exec op before reply after)
    (unadded : ∀ roomId nickname, op ≠ .redis (.sadd roomId nickname)) :
    after.redis.members ⊆ before.redis.members := by
  by_cases writes : op.IsRedis Command.WritesMembers
  · cases op with
    | redis command =>
        obtain ⟨value, redis, effect, -, rfl⟩ := step
        cases command with
        | sadd => exact absurd rfl (unadded _ _)
        | srem =>
            obtain ⟨-, rfl⟩ := effect
            exact Finset.erase_subset _ _
        | delMembers =>
            obtain ⟨-, rfl⟩ := effect
            exact Finset.filter_subset _ _
        | _ => exact writes.elim
    | _ => exact writes.elim
  · rw [(World.exec_keepsRedis step).members writes]

/-- An idle operation does nothing to the session or its member entries. -/
theorem inert_of_idle (op : Op) (idle : Idle op) :
    (outline sessionId nickname).Inert .idle op where
  asserts _ := trivial
  keeps := by
    rintro ⟨before, _⟩ others reply ⟨after, _⟩ accounted ⟨step, -, -⟩
    refine accounted.shrink (sessions_of_unwritten step idle.1) fun roomId member => ?_
    exact members_of_unadded step idle.2 member
  still reply := by
    cases op with
    | redis command =>
        cases command with
        | sadd => exact absurd rfl (idle.2 _ _)
        | hset key => cases key <;> rfl
        | _ => rfl
    | _ => rfl

/-- A calm operation does nothing to the session or its member entries, whatever its task does.
-/
theorem inert_of_calm (phase : Phase) (op : Op) (calm : Calm op) :
    (outline sessionId nickname).Inert phase op where
  asserts _ := trivial
  keeps := by
    rintro ⟨before, _⟩ others reply ⟨after, _⟩ accounted ⟨step, -, -⟩
    refine accounted.shrink (sessions_of_unwritten step calm.1) fun roomId member => ?_
    have same : after.roster.members = before.roster.members :=
      (World.exec_keepsRedis step).members calm.2
    rwa [same] at member
  still reply := by
    cases op with
    | redis command =>
        cases command with
        | sadd | srem => exact absurd trivial calm.2
        | hset key =>
            cases key with
            | session => exact absurd trivial calm.1
            | binding => cases phase <;> rfl
        | _ => cases phase <;> rfl
    | _ => cases phase <;> rfl

/-- A command that only reads does nothing to them. -/
theorem inert_of_reads (command : Command) (reads : command.Reads) :
    (outline sessionId nickname).Inert .idle (.redis command) := by
  refine inert_of_idle _ ⟨fun writes => ?_, ?_⟩
  · cases command with
    | hset | del | expire => exact reads.elim
    | _ => exact writes.elim
  · rintro roomId nickname same
    cases same
    exact reads.elim

/-- Everything but entering a room and recording it. -/
theorem serves (state : State) (connection : ConnectionId) :
    Serves state connection ((outline sessionId nickname).Inert .idle) where
  reads := inert_of_reads
  clock := inert_of_idle _ ⟨id, nofun⟩
  fuel := inert_of_idle _ ⟨id, nofun⟩
  recalls := inert_of_idle _ ⟨id, nofun⟩
  remembers _ _ := inert_of_idle _ ⟨id, nofun⟩
  answers _ := inert_of_idle _ ⟨id, nofun⟩
  sessions _ := inert_of_idle _ ⟨id, nofun⟩
  creates _ _ _ := inert_of_idle _ ⟨id, nofun⟩
  deletes _ _ _ _ := inert_of_idle _ ⟨id, nofun⟩
  removes _ _ := inert_of_idle _ ⟨id, nofun⟩
  clears _ := inert_of_idle _ ⟨id, nofun⟩
  unbinds _ := inert_of_idle _ ⟨id, nofun⟩
  scores _ _ := inert_of_idle _ ⟨id, nofun⟩
  records _ _ := inert_of_idle _ ⟨id, nofun⟩
  sends _ _ := inert_of_idle _ ⟨id, nofun⟩
  peers _ _ := inert_of_idle _ ⟨id, nofun⟩
  registers _ _ _ := inert_of_idle _ ⟨id, nofun⟩

/-! ## The handlers -/

section Handlers

variable {state : State} {connection : ConnectionId} {roomId : RoomId} {name : Nickname}
  {sfuAddr : Address}

/-- A part that only does what an idle request may do. -/
theorem rests_of_only {α : Type} {program : Call α}
    (only : program.Only ((outline sessionId nickname).Inert .idle)) :
    (outline sessionId nickname).Safe (fun last _ => last = .idle) .idle program :=
  Outline.Safe.of_only only

/-- An idle part and the rest of a handler. -/
theorem safe_bind_of_only {ε α β : Type} {post : Phase → Except ε β → Prop}
    {program : ExceptT ε Call α} {rest : α → ExceptT ε Call β}
    (only : program.run.Only ((outline sessionId nickname).Inert .idle))
    (failed : ∀ error, post .idle (.error error))
    (next : ∀ value, (outline sessionId nickname).Safe post .idle (rest value).run) :
    (outline sessionId nickname).Safe post .idle (program >>= rest).run := by
  refine Outline.Safe.except_bind ((Outline.Safe.of_only only).mono ?_)
  rintro phase (error | value) rfl
  · exact failed error
  · exact next value

/-- The nickname is added to a room. -/
theorem joinRoom_safe : (outline sessionId nickname).Safe (fun last joined => match joined with
    | .ok _ => last = .entering roomId name
    | .error _ => last = .idle) .idle (joinRoom roomId name).run := by
  refine safe_bind_of_only (redisCommand_only (inert_of_reads _ trivial)) (fun _ => rfl)
    fun isBound => ?_
  cases isBound with
  | false => rfl
  | true =>
      refine safe_bind_of_only (redisCommand_only (inert_of_reads _ trivial)) (fun _ => rfl)
        fun taken => ?_
      cases taken with
      | true => rfl
      | false =>
          refine Threads.safe_redis fun world _ others accounted _ => ⟨trivial, ?_⟩
          intro value redis effect _
          obtain rfl : redis = _ := effect
          refine ⟨accounted.add roomId name, ?_⟩
          refine Threads.safe_redis fun world _ others accounted _ => ⟨trivial, ?_⟩
          rintro names redis ⟨-, rfl⟩ -
          exact ⟨accounted, rfl⟩

/-- A peer of the SFU has a room. -/
theorem ensurePeer_safe {phase : Phase} : (outline sessionId nickname).Safe (fun last created =>
    last = phase ∧ (created = .ok () → roomId ≠ "")) phase
      (state.ensurePeer sfuAddr roomId name) := by
  refine Outline.Safe.inert (inert_of_calm _ _ ⟨id, id⟩) ?_
  rintro ⟨before, _⟩ reply ⟨after, _⟩ ⟨step, -, -⟩
  refine ⟨rfl, fun created => ?_⟩
  rcases step with ⟨rfl, nonempty, -⟩ | ⟨⟨message, rfl⟩, -⟩
  · exact nonempty
  · cases created

/-- The nickname is taken out of the room it was being added to. -/
theorem undoJoin_safe : (outline sessionId nickname).Safe (fun last _ => last = .idle)
    (.entering roomId name) (undoJoin roomId name) := by
  refine Outline.Safe.bind (Threads.safe_redis fun world _ others accounted _ => ⟨trivial, ?_⟩)
  rintro value redis ⟨-, rfl⟩ -
  exact ⟨accounted.remove, rfl⟩

/-- A request that has entered a room is entering it still. -/
theorem enterRoom_safe : (outline sessionId nickname).Safe (fun last entered => match entered with
    | .ok _ => last = .entering roomId name ∧ roomId ≠ ""
    | .error _ => last = .idle) .idle (enterRoom state sfuAddr roomId name).run := by
  refine Outline.Safe.except_bind (Outline.Safe.adapt (joinRoom_safe.mono ?_))
  rintro phase (error | names) joined
  · exact joined
  · obtain rfl := joined
    refine Outline.Safe.except_bind (Outline.Safe.lift (ensurePeer_safe.mono ?_))
    rintro phase (error | ⟨⟩) ⟨rfl, nonempty⟩
    · refine Outline.Safe.except_bind (Outline.Safe.lift (undoJoin_safe.mono ?_))
      rintro phase _ rfl
      rfl
    · exact ⟨rfl, nonempty rfl⟩

/-- The room that has been entered is recorded. -/
theorem recordRoom_safe (nonempty : roomId ≠ "") :
    (outline sessionId nickname).Safe (fun last _ => last = .idle) (.entering roomId name)
      (recordRoom state connection sessionId roomId).run := by
  refine Outline.Safe.except_bind (Outline.Safe.adapt (Threads.safe_redis_last
    fun world _ others accounted allowed => ⟨trivial, ?_⟩))
  intro value redis effect _
  obtain rfl : redis = _ := effect
  refine ⟨?_, ?_⟩
  · change Accounted sessionId nickname (World.roster _) _
    rw [World.roster_hset]
    refine accounted.record (fun other here => allowed rfl other here) fun other same => ?_
    cases same
    exact ⟨rfl, nonempty⟩
  · have serves : Serves state connection ((outline sessionId nickname).Inert .idle) := serves _ _
    refine rests_of_only ?_
    refine (Only.lift (issue_only (serves.sessions _))).except_bind fun _ => ?_
    exact Only.lift (serves.setContext fun _ => ⟨rfl, id⟩)

/-- A session leaves its room. -/
theorem leaveRoomOf_safe (participants : Option (List String)) (reason : String) :
    (outline sessionId nickname).Safe (fun last _ => last = .idle) .idle
      (leaveRoomOf state connection sessionId roomId name participants reason).run := by
  have serves : Serves state connection ((outline sessionId nickname).Inert .idle) := serves _ _
  refine safe_bind_of_only serves.requireRedis (fun _ => rfl) fun _ => ?_
  refine safe_bind_of_only (Only.lift (serves.leaveRoomAndNotify _ _ _)) (fun _ => rfl) fun _ => ?_
  refine Outline.Safe.except_bind (Outline.Safe.adapt (Threads.safe_redis_last
    fun world _ others accounted allowed => ⟨trivial, ?_⟩))
  intro value redis effect _
  obtain rfl : redis = _ := effect
  refine ⟨?_, ?_⟩
  · change Accounted sessionId nickname (World.roster _) _
    rw [World.roster_hset]
    exact accounted.record (fun other here => allowed rfl other here) nofun
  · refine rests_of_only ?_
    refine (Only.lift (issue_only (serves.sessions _))).except_bind fun _ => ?_
    exact Only.lift (serves.setContext fun _ => ⟨rfl, id⟩)

/-- A leave ends with its task idle. -/
theorem handleLeave_safe (participants : Option (List String)) :
    (outline sessionId nickname).Safe (fun last _ => last = .idle) .idle
      (handleLeave state connection sessionId roomId participants).run := by
  have serves : Serves state connection ((outline sessionId nickname).Inert .idle) := serves _ _
  refine safe_bind_of_only (serves.checkSession sessionId) (fun _ => rfl) fun session => ?_
  cases session.roomId with
  | none => rfl
  | some currentRoom =>
      change (outline sessionId nickname).Safe _ _
        (if currentRoom ≠ roomId then _ else _ : WsCall Unit).run
      split
      · rfl
      · refine Outline.Safe.except_bind ((leaveRoomOf_safe participants "user_left").mono ?_)
        rintro phase (error | _) rfl
        · rfl
        · exact rests_of_only (serves.sendMessage _)

/-- A join under the session's lock ends with its task idle. -/
theorem handleJoinLocked_safe : (outline sessionId nickname).Safe (fun last _ => last = .idle)
    .idle (handleJoinLocked state connection sessionId roomId).run := by
  have serves : Serves state connection ((outline sessionId nickname).Inert .idle) := serves _ _
  refine safe_bind_of_only (serves.admitJoin sessionId roomId) (fun _ => rfl) fun session => ?_
  refine safe_bind_of_only (serves.joinTarget roomId) (fun _ => rfl) fun sfuAddr => ?_
  refine Outline.Safe.except_bind (enterRoom_safe.mono ?_)
  rintro phase (error | participants) entered
  · exact entered
  obtain ⟨rfl, nonempty⟩ := entered
  refine Outline.Safe.except_bind ((recordRoom_safe nonempty).mono ?_)
  rintro phase (error | _) rfl
  · rfl
  refine rests_of_only ((serves.sendMessage _).except_bind fun _ => ?_)
  refine (Only.lift (serves.register _)).except_bind fun _ => ?_
  exact Only.lift (serves.announce _ _ _)

/-- A request that has opened a room is entering it still. -/
theorem openRoom_safe : (outline sessionId nickname).Safe (fun last opened => match opened with
    | .ok _ => last = .entering roomId name ∧ roomId ≠ ""
    | .error _ => last = .idle) .idle (openRoom state sfuAddr roomId name).run := by
  have serves : Serves state 0 ((outline sessionId nickname).Inert .idle) := serves _ _
  refine Outline.Safe.except_bind (Outline.Safe.lift (joinRoom_safe.mono ?_))
  rintro phase (error | names) joined
  · obtain rfl := joined
    refine Outline.Safe.except_bind (Outline.Safe.lift ((rests_of_only
      (serves.undoBinding roomId)).mono ?_))
    rintro phase _ rfl
    rfl
  · obtain rfl := joined
    refine Outline.Safe.except_bind (Outline.Safe.lift (ensurePeer_safe.mono ?_))
    rintro phase (error | ⟨⟩) ⟨rfl, nonempty⟩
    · refine Outline.Safe.except_bind (Outline.Safe.lift (undoJoin_safe.mono ?_))
      rintro phase _ rfl
      refine Outline.Safe.except_bind (Outline.Safe.lift ((rests_of_only
        (serves.undoBinding roomId)).mono ?_))
      rintro phase _ rfl
      rfl
    · exact ⟨rfl, nonempty rfl⟩

/-- A create under the session's lock ends with its task idle. -/
theorem handleCreateLocked_safe : (outline sessionId nickname).Safe (fun last _ => last = .idle)
    .idle (handleCreateLocked state connection sessionId).run := by
  have serves : Serves state connection ((outline sessionId nickname).Inert .idle) := serves _ _
  refine safe_bind_of_only (serves.admitCreate sessionId) (fun _ => rfl) fun session => ?_
  refine safe_bind_of_only (Only.lift (issue_only (inert_of_idle _ ⟨id, nofun⟩))) (fun _ => rfl)
    fun roomId => ?_
  have assigns : (redis (assignRoomToLeastLoadedSfu roomId state.config.publicNodeId
      state.config.signalingPublicHost state.config.signalingPublicPort)).run.Only
        ((outline sessionId nickname).Inert .idle) :=
    Only.adapt (serves.assignRoom fun _ => inert_of_idle _ ⟨id, nofun⟩)
  refine safe_bind_of_only assigns (fun _ => rfl) fun assignment => ?_
  refine Outline.Safe.except_bind (openRoom_safe.mono ?_)
  rintro phase (error | _) opened
  · exact opened
  obtain ⟨rfl, nonempty⟩ := opened
  refine Outline.Safe.except_bind ((recordRoom_safe nonempty).mono ?_)
  rintro phase (error | _) rfl
  · rfl
  refine rests_of_only ((serves.sendMessage _).except_bind fun _ => ?_)
  exact Only.lift (serves.register _)

/-- The lock is taken and given back around a handler. -/
theorem withSessionLock_safe {handler : WsCall Unit}
    (handles : (outline sessionId nickname).Safe (fun last _ => last = .idle) .idle handler.run) :
    (outline sessionId nickname).Safe (fun last _ => last = .idle) .idle
      (withSessionLock state sessionId handler).run := by
  have serves : Serves state 0 ((outline sessionId nickname).Inert .idle) := serves _ _
  refine safe_bind_of_only serves.requireRedis (fun _ => rfl) fun _ => ?_
  refine safe_bind_of_only (Only.lift (issue_only (inert_of_idle _ ⟨id, nofun⟩))) (fun _ => rfl)
    fun lockOwner => ?_
  refine safe_bind_of_only (Only.adapt (redisCommand_only (inert_of_idle _ ⟨id, nofun⟩)))
    (fun _ => rfl) fun acquired => ?_
  cases acquired with
  | false => rfl
  | true =>
      refine Outline.Safe.bind (handles.mono ?_)
      rintro phase result rfl
      refine rests_of_only (Only.bind ?_ fun _ => trivial)
      exact redisCommand_drop_only (inert_of_idle _ ⟨id, nofun⟩)

/-- Whatever is asked for the session, the request ends idle. -/
theorem handleText_safe {jwt : Jwt} {request : ClientMessage} (asks : Asks sessionId request) :
    (outline sessionId nickname).Safe (fun last _ => last = .idle) .idle
      (handleText state connection jwt request) := by
  have handles : (outline sessionId nickname).Safe (fun last _ => last = .idle) .idle
      (handleClientMessage state connection jwt request).run := by
    cases request with
    | create asked =>
        obtain rfl : asked = sessionId := asks
        exact withSessionLock_safe handleCreateLocked_safe
    | join asked roomId =>
        obtain rfl : asked = sessionId := asks
        exact withSessionLock_safe handleJoinLocked_safe
    | leave asked roomId participants =>
        obtain rfl : asked = sessionId := asks
        exact handleLeave_safe participants
    | _ => exact asks.elim
  refine Outline.Safe.bind (handles.mono ?_)
  rintro phase result rfl
  refine rests_of_only ?_
  split
  · trivial
  · trivial
  · exact issue_only (inert_of_idle _ ⟨id, nofun⟩)

end Handlers

/-! ## Runs -/

/-- What a task knows of its session is kept by the others. -/
theorem stable : (outline sessionId nickname).Stable where
  start := by
    rintro ⟨world, _⟩ others phase program _ ⟨rfl, rfl, state, connection, jwt, request, asks, rfl⟩
      accounted
    refine ⟨⟨accounted.named, fun roomId member => ?_⟩, ?_⟩
    · exact (accounted.member roomId member).imp_right Multiset.mem_cons_of_mem
    · refine (handleText_safe asks).mono ?_
      rintro phase result rfl state others accounted
      refine ⟨accounted.named, fun roomId member => ?_⟩
      refine (accounted.member roomId member).imp_right fun entering => ?_
      exact (Multiset.mem_cons.mp entering).resolve_left nofun
  discard _ _ _ never := never.elim
  environment := by
    rintro ⟨before, _⟩ others ⟨after, _⟩ elsewhere accounted
    exact accounted.shrink elsewhere.session elsewhere.members

/-- **The session is in one room whenever nothing is in progress**, in every run in which no
room is overwritten that the nickname is a member of. -/
theorem inOneRoom_of_quiescent {world : World} (start : InOneRoom sessionId world.roster)
    {pool : (threads sessionId (world.roster.named sessionId)).system.Pool}
    (run : Reaches (guard sessionId (world.roster.named sessionId)) ⟨(world, ()), []⟩ pool)
    (quiescent : pool.Quiescent) : InOneRoom sessionId pool.state.1.roster := by
  have initial : (outline sessionId (world.roster.named sessionId)).Holds ⟨(world, ()), []⟩ :=
    .of_quiescent ⟨rfl, fun roomId member => .inl (start.recorded roomId member)⟩
  exact ((initial.reaches stable run).quiescent quiescent).inOneRoom

end Requests

/-! ## Two connections of one session -/

section Decidable

variable {sessionId : SessionId} {nickname : Nickname}

/-- The test of `Allowed`. -/
def allows (sessionId : SessionId) (nickname : Nickname) (world : World)
    (others : Multiset Phase) : Op → Bool
  | .redis (.hset (.session asked) _ value) => decide (asked = sessionId →
      ∀ roomId ∈ world.roster.room sessionId, roomId ≠ value →
        (roomId, nickname) ∈ world.roster.members → Phase.entering roomId nickname ∈ others)
  | _ => true

/-- The test that a run makes of each operation is the condition on it. -/
theorem allows_iff {world : World} {others : Multiset Phase} {op : Op} :
    allows sessionId nickname world others op = true ↔
      Allowed sessionId nickname world others op := by
  unfold allows Allowed
  split
  · exact decide_eq_true_iff
  · exact iff_of_true rfl trivial

instance decidableAllowed (world : World) (others : Multiset Phase) (op : Op) :
    Decidable (Allowed sessionId nickname world others op) :=
  decidable_of_iff _ allows_iff

instance : ∀ state phase op others, Decidable (guard sessionId nickname state phase op others) :=
  fun state _ op others => decidableAllowed state.1 others op

instance (world : World) (op : Op) (reply : op.Reply) :
    Decidable ((threads sessionId nickname).assumed world op reply) :=
  inferInstanceAs (Decidable True)

end Decidable

/-- Alice has two connections with which she may create a room. -/
def doubled : World :=
  { Names.sampleWorld with
    redis := { Names.sampleWorld.redis with
      sessions := Finmap.singleton "session-1"
        ⟨Hash.set (some (Hash.set none "nickname" "alice")) "room_id" "", none⟩ }
    issued := {"session-1"}
    connections := fun _ => { capacity := 256, context :=
      { sessionId := some "session-1", allowedIntent := some "create" } } }

/-- She is in no room. -/
theorem inOneRoom_doubled : InOneRoom "session-1" doubled.roster :=
  inOneRoom_of_recorded fun _ member => absurd member (Finset.notMem_empty _)

/-- Both connections ask for a room. -/
def creations : List (threads "session-1" "alice").system.Thread :=
  [0, 1].map fun connection =>
    ⟨Phase.idle, handleText sampleNode connection TokenFormat.openJwt (.create "session-1")⟩

/-- Two creates of one session are running from the start. -/
theorem reaches_creations {guard : (threads "session-1" "alice").system.Guard} :
    Reaches guard ⟨(doubled, ()), []⟩ ⟨(doubled, ()), creations⟩ := by
  refine reaches_start fun thread member others => ?_
  obtain ⟨connection, -, rfl⟩ := List.mem_map.mp member
  exact ⟨rfl, rfl, sampleNode, connection, TokenFormat.openJwt, .create "session-1", rfl, rfl⟩

/-- A request creates the room until it has a peer of the SFU. -/
def opening (position : ℕ) (lockOwner roomId : String) : List (ℕ × Hint) :=
  (noHints 1 ++ { names := [lockOwner] } :: noHints 7 ++ { names := [roomId] } ::
    noHints 1 ++ { names := ["sfu-1"] } :: noHints 3 ++ { names := ["alice"] } ::
      noHints 1).map (position, ·)

/-- The second request is refused while the first holds the lock. -/
theorem inOneRoom_refused : ∃ pool,
    Reaches (guard "session-1" "alice") ⟨(doubled, ()), []⟩ pool ∧ pool.Quiescent ∧
      ("room-1", "alice") ∈ pool.state.1.roster.members ∧
      InOneRoom "session-1" pool.state.1.roster := by
  have replayed : ((threads "session-1" "alice").sampler.replay (guard "session-1" "alice")
      (opening 0 "lock-1" "room-1" ++
        (1, {}) :: (1, { names := ["lock-2"] }) :: (turns 1 3 ++ turns 0 7))
      ⟨(doubled, ()), creations⟩).any (fun pool =>
        pool.threads.isEmpty ∧ ("room-1", "alice") ∈ pool.state.1.roster.members) = true := by
    decide +kernel
  obtain ⟨pool, run, passed⟩ := Sampler.exists_of_replay replayed
  obtain ⟨quiescent, inside⟩ := of_decide_eq_true passed
  have run := reaches_creations.trans run
  have quiescent : pool.Quiescent := List.isEmpty_iff.mp quiescent
  exact ⟨pool, run, quiescent, inside,
    inOneRoom_of_quiescent inOneRoom_doubled run quiescent⟩

/-- The lifetime of the lock passes, and the session stays. -/
def lapse (pool : (threads "session-1" "alice").system.Pool) :
    Option (threads "session-1" "alice").system.Pool :=
  if pool.state.1.now ≤ 5001 ∧ (pool.state.1.elapse 5001).redis.hash (.session "session-1") =
      pool.state.1.redis.hash (.session "session-1") then
    some ⟨(pool.state.1.elapse 5001, pool.state.2), pool.threads⟩
  else none

/-- Letting a lock lapse is a step of the system. -/
theorem lapse_step {guard : (threads "session-1" "alice").system.Guard}
    (pool pool' : (threads "session-1" "alice").system.Pool) (lapsed : lapse pool = some pool') :
    Step guard pool pool' := by
  unfold lapse at lapsed
  split at lapsed
  · rename_i passes
    cases lapsed
    exact .environment ⟨passes.2, fun _ member => member, .inl ⟨5001, passes.1, rfl⟩⟩
  · cases lapsed

/-- **Alice is in two rooms**: the lock expires while the first request waits for the SFU, and
the second one opens and records a room in between. -/
theorem two_rooms : InOneRoom "session-1" doubled.roster ∧
    ∃ pool : (threads "session-1" "alice").system.Pool,
      Reaches unguarded ⟨(doubled, ()), []⟩ pool ∧ pool.Quiescent ∧
        ¬ InOneRoom "session-1" pool.state.1.roster := by
  refine ⟨inOneRoom_doubled, ?_⟩
  have replayed : ((((threads "session-1" "alice").sampler.replay unguarded
      (opening 0 "lock-1" "room-1") ⟨(doubled, ()), creations⟩).bind lapse).bind
      ((threads "session-1" "alice").sampler.replay unguarded
        (opening 1 "lock-2" "room-2" ++ turns 1 7 ++ turns 0 7))).any (fun pool =>
        pool.threads.isEmpty ∧
        ("room-1", pool.state.1.roster.named "session-1") ∈ pool.state.1.roster.members ∧
        ("room-2", pool.state.1.roster.named "session-1") ∈ pool.state.1.roster.members) =
          true := by
    decide +kernel
  obtain ⟨pool, run, passed⟩ := Sampler.exists_of_replay_launch lapse_step replayed
  obtain ⟨quiescent, one, two⟩ := of_decide_eq_true passed
  refine ⟨pool, reaches_creations.trans run, List.isEmpty_iff.mp quiescent, fun alone => ?_⟩
  exact absurd (alone.unique _ _ one two) (by decide)

end Callifornia.OneRoom
