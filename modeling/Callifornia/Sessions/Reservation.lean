import Callifornia.Replay
import Callifornia.Sessions.Tasks

/-! # Nickname reservations and their sessions

A request for a new session reserves the nickname, and both ways to log out release it.
The janitor and the expiry of a session delete its hash only, and the reservation stays.
-/

namespace Callifornia.Sessions.Reservation

open Concurrency Concurrency.System FiniteMap Store Signaling

/-- How far a run is. -/
inductive Phase
  /-- A request for a new session before it has drawn an id. -/
  | auth
  | drawn (sessionId : SessionId)
  /-- The nickname is reserved, and the session has no hash yet. -/
  | reserved (sessionId : SessionId) (nickname : Nickname)
  | janitor
  | idle
  /-- The run has read the nickname of the session. -/
  | knows (sessionId : SessionId) (nickname : Nickname)
  /-- A logout has deleted the hash of the session. -/
  | deleted (sessionId : SessionId) (nickname : Nickname)
  /-- A logout has released the nickname of the session. -/
  | released (sessionId : SessionId) (nickname : Nickname)
  deriving DecidableEq

namespace Phase

/-- The phase after the nickname field of a session has been read. -/
def learn (sessionId : SessionId) (value : Option String) : Phase :=
  match value.filter (· ≠ "") with
  | some nickname => .knows sessionId nickname
  | none => .idle

def advance : Phase → (op : Op) → op.Reply → Phase
  | .auth, .newUuid, sessionId => .drawn sessionId
  | .drawn sessionId, .redis (.setNx (.nick nickname) _ _), .ok true => .reserved sessionId nickname
  | .reserved _ _, .redis (.hset (.session _) _ _), _ => .idle
  | .idle, .redis (.hgetall (.session sessionId)), .ok fields =>
      learn sessionId (fields.lookup "nickname")
  | .idle, .redis (.hget (.session sessionId) field), .ok value =>
      if field = "nickname" then learn sessionId value else .idle
  | .knows sessionId nickname, .redis (.del (.session _)), _ => .deleted sessionId nickname
  | .knows sessionId nickname, .redis (.compareAndDel (.nick _) _), _ =>
      .released sessionId nickname
  | .deleted _ _, .redis (.compareAndDel (.nick _) _), _ => .idle
  | .released _ _, .redis (.del (.session _)), _ => .idle
  | phase, _, _ => phase

/-- The phase in which a task starts. -/
def initial : SessionTask → Phase
  | .auth .. => .auth
  | .janitor _ => .janitor
  | _ => .idle

/-- The run knows the session under this nickname. -/
def Names (sessionId : SessionId) (nickname : Nickname) : Phase → Prop
  | .reserved own name | .knows own name | .deleted own name | .released own name =>
      own = sessionId ∧ name = nickname
  | _ => False

/-- The run knows the session. -/
def Mentions (sessionId : SessionId) (phase : Phase) : Prop :=
  phase = .drawn sessionId ∨ ∃ nickname, phase.Names sessionId nickname

/-- The run accounts for a reservation whose session has no hash. -/
def Covers (sessionId : SessionId) (nickname : Nickname) (phase : Phase) : Prop :=
  phase = .reserved sessionId nickname ∨ phase = .deleted sessionId nickname

end Phase

/-- The nickname is reserved for the session. -/
def Holds (world : World) (nickname : Nickname) (sessionId : SessionId) : Prop :=
  (world.redis.strings.lookup (.nick nickname)).map StringValue.value = some sessionId

instance (world : World) (nickname : Nickname) (sessionId : SessionId) :
    Decidable (Holds world nickname sessionId) := inferInstanceAs (Decidable (_ = _))

/-- The nickname in the hash of a session. -/
def nicknameOf (world : World) (sessionId : SessionId) : Option Nickname :=
  (world.redis.sessions.lookup sessionId).bind (·.hash.get "nickname")

/-- The nickname of the session is reserved for it. -/
def Leased (world : World) (sessionId : SessionId) : Prop :=
  ∃ nickname ∈ nicknameOf world sessionId, Holds world nickname sessionId

instance (world : World) : DecidablePred (Leased world) := fun sessionId =>
  inferInstanceAs (Decidable (∃ nickname ∈ nicknameOf world sessionId, _))

/-- A reserved nickname belongs to a session that exists. -/
def Kept (world : World) : Prop :=
  ∀ nickname sessionId, Holds world nickname sessionId → nicknameOf world sessionId = some nickname

/-- No session expires whose nickname is reserved for it. -/
def Spares (world : World) (time : ℕ) : Prop :=
  ∀ sessionId, Leased world sessionId →
    nicknameOf (world.elapse time) sessionId = nicknameOf world sessionId

/-- Any number of tasks on any sessions, connections and nodes. Time passes as `lets` says,
and keys expire. -/
def threads (lets : World → ℕ → Prop) : Threads where
  Phase := Phase
  Ghost := Unit
  Result := Unit
  advance := Phase.advance
  start before _ phase program after := after = before ∧
    ∃ task : SessionTask, phase = .initial task ∧ program = task.program
  environment before _ after :=
    ∃ time, before.1.now ≤ time ∧ lets before.1 time ∧ after.1 = before.1.elapse time

/-- The janitor deletes no session whose nickname is reserved for it. -/
def Allowed (world : World) : Phase → Op → Prop
  | .janitor, .redis (.del (.session sessionId)) => ¬ Leased world sessionId
  | _, _ => True

variable {lets : World → ℕ → Prop}

def guard : (threads lets).system.Guard := fun state phase op _ => Allowed state.1 phase op

/-- A session that only the request that drew its id knows of. -/
structure Secret (world : World) (others : Multiset Phase) (sessionId : SessionId) : Prop where
  unleased : ∀ nickname, ¬ Holds world nickname sessionId
  unnamed : nicknameOf world sessionId = none
  unmentioned : ∀ other ∈ others, ¬ other.Mentions sessionId

/-- Every session has one nickname, and its reservation is accounted for. -/
structure Sound (name : SessionId → Nickname) (world : World) (phases : Multiset Phase) :
    Prop where
  leased : ∀ nickname sessionId, Holds world nickname sessionId →
    nickname = name sessionId ∧ sessionId ∈ world.issued ∧
      (nicknameOf world sessionId = some nickname ∨
        ∃ phase ∈ phases, phase.Covers sessionId nickname)
  hashed : ∀ sessionId nickname, nicknameOf world sessionId = some nickname →
    nickname = name sessionId ∧ sessionId ∈ world.issued
  named : ∀ phase ∈ phases, ∀ sessionId nickname, phase.Names sessionId nickname →
    nickname = name sessionId ∧ sessionId ∈ world.issued
  secret : ∀ sessionId others, phases = .drawn sessionId ::ₘ others →
    sessionId ∈ world.issued ∧ Secret world others sessionId
  released : ∀ sessionId nickname, .released sessionId nickname ∈ phases →
    ¬ Holds world nickname sessionId

def outline : Outline (threads Spares).system where
  guard := guard
  inv state phases := ∃ name, Sound name state.1 phases
  asserts _ _ _ := True

variable {name : SessionId → Nickname} {world after : World} {phase phase' : Phase}
  {others : Multiset Phase} {sessionId : SessionId} {nickname : Nickname}

/-! ## The invariant -/

namespace Sound

/-- A run moves on while no nickname is reserved and no hash gets one. -/
theorem move (sound : Sound name world (phase ::ₘ others))
    (leases : ∀ nickname sessionId, Holds after nickname sessionId → Holds world nickname sessionId)
    (shrinks : ∀ sessionId nickname, nicknameOf after sessionId = some nickname →
      nicknameOf world sessionId = some nickname)
    (issued : world.issued ⊆ after.issued)
    (covers : ∀ sessionId nickname, nickname = name sessionId → Holds after nickname sessionId →
      nicknameOf world sessionId = some nickname ∨ phase.Covers sessionId nickname →
      nicknameOf after sessionId = some nickname ∨ phase'.Covers sessionId nickname)
    (names : ∀ sessionId nickname, phase'.Names sessionId nickname →
      phase.Names sessionId nickname ∨ nicknameOf world sessionId = some nickname)
    (secret : ∀ sessionId, phase' = .drawn sessionId → phase = .drawn sessionId)
    (released : ∀ sessionId nickname, phase' = .released sessionId nickname →
      ¬ Holds after nickname sessionId) : Sound name after (phase' ::ₘ others) where
  leased nickname sessionId held := by
    obtain ⟨own, drawn, accounted⟩ := sound.leased nickname sessionId (leases _ _ held)
    refine ⟨own, issued drawn, ?_⟩
    have here : (nicknameOf world sessionId = some nickname ∨ phase.Covers sessionId nickname) ∨
        ∃ other ∈ others, other.Covers sessionId nickname := by
      rcases accounted with present | ⟨other, member, covered⟩
      · exact .inl (.inl present)
      · rcases Multiset.mem_cons.mp member with rfl | member
        · exact .inl (.inr covered)
        · exact .inr ⟨other, member, covered⟩
    rcases here with here | ⟨other, member, covered⟩
    · rcases covers sessionId nickname own held here with present | covered
      · exact .inl present
      · exact .inr ⟨phase', Multiset.mem_cons_self _ _, covered⟩
    · exact .inr ⟨other, Multiset.mem_cons_of_mem member, covered⟩
  hashed sessionId nickname present := by
    obtain ⟨own, drawn⟩ := sound.hashed sessionId nickname (shrinks _ _ present)
    exact ⟨own, issued drawn⟩
  named other member sessionId nickname named := by
    have before : nickname = name sessionId ∧ sessionId ∈ world.issued := by
      rcases Multiset.mem_cons.mp member with rfl | member
      · rcases names sessionId nickname named with named | present
        · exact sound.named phase (Multiset.mem_cons_self _ _) sessionId nickname named
        · exact sound.hashed sessionId nickname present
      · exact sound.named other (Multiset.mem_cons_of_mem member) sessionId nickname named
    exact ⟨before.1, issued before.2⟩
  secret sessionId rest split := by
    have keep {rest : Multiset Phase} (before : Secret world rest sessionId) :
        (∀ nickname, ¬ Holds after nickname sessionId) ∧ nicknameOf after sessionId = none := by
      refine ⟨fun nickname held => before.unleased nickname (leases _ _ held), ?_⟩
      refine Option.eq_none_iff_forall_ne_some.mpr fun nickname present => ?_
      have impossible := shrinks _ _ present
      rw [before.unnamed] at impossible
      cases impossible
    rcases Multiset.cons_eq_cons.mp split with ⟨own, rfl⟩ | ⟨-, shared, rfl, rfl⟩
    · obtain ⟨drawn, before⟩ := sound.secret sessionId others (by rw [secret sessionId own])
      exact ⟨issued drawn, (keep before).1, (keep before).2, before.unmentioned⟩
    · obtain ⟨drawn, before⟩ := sound.secret sessionId (phase ::ₘ shared) (Multiset.cons_swap _ _ _)
      refine ⟨issued drawn, (keep before).1, (keep before).2, fun other member mentions => ?_⟩
      rcases Multiset.mem_cons.mp member with rfl | member
      · rcases mentions with own | ⟨nickname, named⟩
        · exact before.unmentioned phase (Multiset.mem_cons_self _ _)
            (.inl (secret sessionId own))
        · rcases names sessionId nickname named with named | present
          · exact before.unmentioned phase (Multiset.mem_cons_self _ _) (.inr ⟨nickname, named⟩)
          · rw [before.unnamed] at present
            cases present
      · exact before.unmentioned other (Multiset.mem_cons_of_mem member) mentions
  released sessionId nickname member held := by
    rcases Multiset.mem_cons.mp member with own | member
    · exact released sessionId nickname own.symm held
    · exact sound.released sessionId nickname (Multiset.mem_cons_of_mem member) (leases _ _ held)

/-- A request for a session draws its id. -/
theorem draw (sound : Sound name world (.auth ::ₘ others)) (fresh : sessionId ∉ world.issued) :
    Sound name { world with issued := insert sessionId world.issued }
      (.drawn sessionId ::ₘ others) := by
  have unmentioned : ∀ other ∈ others, ¬ other.Mentions sessionId := by
    intro other member mentions
    rcases mentions with rfl | ⟨nickname, named⟩
    · obtain ⟨rest, rfl⟩ := Multiset.exists_cons_of_mem member
      exact fresh (sound.secret sessionId (.auth ::ₘ rest) (Multiset.cons_swap _ _ _)).1
    · exact fresh (sound.named other (Multiset.mem_cons_of_mem member) sessionId nickname named).2
  have grows : ∀ {other}, other ∈ world.issued → other ∈ insert sessionId world.issued :=
    Finset.mem_insert_of_mem
  refine ⟨fun nickname other held => ?_, fun other nickname present => ?_,
    fun other member query nickname named => ?_, fun query rest split => ?_,
    fun query nickname member => ?_⟩
  · obtain ⟨own, drawn, accounted⟩ := sound.leased nickname other held
    refine ⟨own, grows drawn, accounted.imp_right fun ⟨phase, member, covered⟩ => ?_⟩
    rcases Multiset.mem_cons.mp member with rfl | member
    · rcases covered with impossible | impossible <;> cases impossible
    · exact ⟨phase, Multiset.mem_cons_of_mem member, covered⟩
  · obtain ⟨own, drawn⟩ := sound.hashed other nickname present
    exact ⟨own, grows drawn⟩
  · rcases Multiset.mem_cons.mp member with rfl | member
    · exact named.elim
    · obtain ⟨own, drawn⟩ :=
        sound.named other (Multiset.mem_cons_of_mem member) query nickname named
      exact ⟨own, grows drawn⟩
  · rcases Multiset.cons_eq_cons.mp split with ⟨own, rfl⟩ | ⟨-, shared, rfl, rfl⟩
    · cases own
      refine ⟨Finset.mem_insert_self _ _, fun nickname held => ?_, ?_, unmentioned⟩
      · exact fresh (sound.leased nickname sessionId held).2.1
      · refine Option.eq_none_iff_forall_ne_some.mpr fun nickname present => ?_
        exact fresh (sound.hashed sessionId nickname present).2
    · obtain ⟨drawn, before⟩ := sound.secret query (.auth ::ₘ shared) (Multiset.cons_swap _ _ _)
      refine ⟨grows drawn, before.unleased, before.unnamed, fun other member mentions => ?_⟩
      rcases Multiset.mem_cons.mp member with rfl | member
      · rcases mentions with own | ⟨_, impossible⟩
        · cases own
          exact fresh drawn
        · exact impossible
      · exact before.unmentioned other (Multiset.mem_cons_of_mem member) mentions
  · refine sound.released query nickname (Multiset.mem_cons_of_mem ?_)
    exact (Multiset.mem_cons.mp member).resolve_left nofun

/-- A request for a session reserves its nickname. -/
theorem reserve {value : StringValue} (sound : Sound name world (.drawn sessionId ::ₘ others))
    (own : value.value = sessionId) :
    Sound (Function.update name sessionId nickname)
      { world with
        redis := { world.redis with
          strings := world.redis.strings.insert (.nick nickname) value } }
      (.reserved sessionId nickname ::ₘ others) := by
  obtain ⟨drawn, secret⟩ := sound.secret sessionId others rfl
  have held {query : Nickname} {other : SessionId}
      (holds : Holds { world with
        redis := { world.redis with
          strings := world.redis.strings.insert (.nick nickname) value } } query other) :
      (query = nickname ∧ other = sessionId) ∨ (query ≠ nickname ∧ Holds world query other) := by
    unfold Holds at holds
    rw [lookup_insert_if] at holds
    split at holds
    · rename_i same
      cases same
      exact .inl ⟨rfl, Option.some.inj holds.symm ▸ own⟩
    · rename_i different
      exact .inr ⟨fun same => different (congrArg StringKey.nick same), holds⟩
  have other {query : SessionId} {nickname : Nickname}
      (named : nicknameOf world query = some nickname ∨
        ∃ phase ∈ others, phase.Names query nickname) : query ≠ sessionId := by
    intro same
    subst same
    rcases named with present | ⟨phase, member, named⟩
    · rw [secret.unnamed] at present
      cases present
    · exact secret.unmentioned phase member (.inr ⟨nickname, named⟩)
  refine ⟨fun query query' holds => ?_, fun query nickname' present => ?_,
    fun phase member query nickname' named => ?_, fun query rest split => ?_,
    fun query nickname' member holds => ?_⟩
  · rcases held holds with ⟨rfl, rfl⟩ | ⟨-, holds⟩
    · exact ⟨(Function.update_self query' query name).symm, drawn,
        .inr ⟨_, Multiset.mem_cons_self _ _, .inl rfl⟩⟩
    · have different : query' ≠ sessionId := fun same => secret.unleased query (same ▸ holds)
      obtain ⟨named, drawn, accounted⟩ := sound.leased query query' holds
      rw [Function.update_of_ne different]
      refine ⟨named, drawn, accounted.imp_right fun ⟨phase, member, covered⟩ => ?_⟩
      rcases Multiset.mem_cons.mp member with rfl | member
      · rcases covered with impossible | impossible <;> cases impossible
      · exact ⟨phase, Multiset.mem_cons_of_mem member, covered⟩
  · rw [Function.update_of_ne (other (.inl present))]
    exact sound.hashed query nickname' present
  · rcases Multiset.mem_cons.mp member with rfl | member
    · obtain ⟨rfl, rfl⟩ := named
      exact ⟨(Function.update_self sessionId nickname name).symm, drawn⟩
    · rw [Function.update_of_ne (other (.inr ⟨phase, member, named⟩))]
      exact sound.named phase (Multiset.mem_cons_of_mem member) query nickname' named
  · rcases Multiset.cons_eq_cons.mp split with ⟨impossible, -⟩ | ⟨-, shared, rfl, rfl⟩
    · cases impossible
    · have different : query ≠ sessionId := by
        intro same
        subst same
        exact secret.unmentioned _ (Multiset.mem_cons_self _ _) (.inl rfl)
      obtain ⟨drawn, before⟩ := sound.secret query (.drawn sessionId ::ₘ shared)
        (Multiset.cons_swap _ _ _)
      refine ⟨drawn, fun nickname' holds => ?_, before.unnamed, fun phase member mentions => ?_⟩
      · rcases held holds with ⟨-, same⟩ | ⟨-, holds⟩
        · exact different same
        · exact before.unleased nickname' holds
      · rcases Multiset.mem_cons.mp member with rfl | member
        · rcases mentions with impossible | ⟨_, same, -⟩
          · cases impossible
          · exact different same.symm
        · exact before.unmentioned phase (Multiset.mem_cons_of_mem member) mentions
  · have elsewhere : Phase.released query nickname' ∈ others :=
      (Multiset.mem_cons.mp member).resolve_left nofun
    rcases held holds with ⟨-, same⟩ | ⟨-, holds⟩
    · exact secret.unmentioned _ elsewhere (.inr ⟨nickname', same, rfl⟩)
    · exact sound.released query nickname' (Multiset.mem_cons_of_mem elsewhere) holds

/-- The hash of a new session gets the nickname reserved for it. -/
theorem create {redis : Redis} (sound : Sound name world (.reserved sessionId nickname ::ₘ others))
    (strings : redis.strings = world.redis.strings)
    (written : ∀ query, nicknameOf { world with redis } query =
      if query = sessionId then some nickname else nicknameOf world query) :
    Sound name { world with redis } (.idle ::ₘ others) := by
  obtain ⟨own, drawn⟩ := sound.named _ (Multiset.mem_cons_self _ _) sessionId nickname ⟨rfl, rfl⟩
  have held {query : Nickname} {other : SessionId} :
      Holds { world with redis } query other ↔ Holds world query other := by
    unfold Holds
    rw [strings]
  refine ⟨fun query other holds => ?_, fun query nickname' present => ?_,
    fun phase member query nickname' named => ?_, fun query rest split => ?_,
    fun query nickname' member holds => ?_⟩
  · obtain ⟨named, drawn, accounted⟩ := sound.leased query other (held.mp holds)
    refine ⟨named, drawn, ?_⟩
    rw [written]
    split
    · rename_i same
      rw [named, same, own]
      exact .inl rfl
    · rename_i different
      refine accounted.imp_right fun ⟨phase, member, covered⟩ => ?_
      rcases Multiset.mem_cons.mp member with rfl | member
      · rcases covered with same | impossible
        · cases same
          exact absurd rfl different
        · cases impossible
      · exact ⟨phase, Multiset.mem_cons_of_mem member, covered⟩
  · rw [written] at present
    split at present
    · rename_i same
      rw [← Option.some.inj present, same]
      exact ⟨own, drawn⟩
    · exact sound.hashed query nickname' present
  · rcases Multiset.mem_cons.mp member with rfl | member
    · exact named.elim
    · exact sound.named phase (Multiset.mem_cons_of_mem member) query nickname' named
  · rcases Multiset.cons_eq_cons.mp split with ⟨impossible, -⟩ | ⟨-, shared, rfl, rfl⟩
    · cases impossible
    · obtain ⟨issued, before⟩ := sound.secret query (.reserved sessionId nickname ::ₘ shared)
        (Multiset.cons_swap _ _ _)
      have different : query ≠ sessionId := by
        intro same
        subst same
        exact before.unmentioned _ (Multiset.mem_cons_self _ _) (.inr ⟨nickname, rfl, rfl⟩)
      refine ⟨issued, fun nickname' holds => before.unleased nickname' (held.mp holds), ?_,
        fun phase member mentions => ?_⟩
      · rw [written, if_neg different]
        exact before.unnamed
      · rcases Multiset.mem_cons.mp member with rfl | member
        · rcases mentions with impossible | ⟨_, impossible⟩
          · cases impossible
          · exact impossible
        · exact before.unmentioned phase (Multiset.mem_cons_of_mem member) mentions
  · have member := (Multiset.mem_cons.mp member).resolve_left nofun
    exact sound.released query nickname' (Multiset.mem_cons_of_mem member) (held.mp holds)

/-- Keys expire, but no session whose nickname is reserved for it. -/
theorem elapse {time : ℕ} (sound : Sound name world others) (spares : Spares world time) :
    Sound name (world.elapse time) others := by
  have leases {nickname : Nickname} {sessionId : SessionId}
      (held : Holds (world.elapse time) nickname sessionId) : Holds world nickname sessionId := by
    obtain ⟨value, found, own⟩ := Option.map_eq_some_iff.mp held
    unfold Holds
    rw [(lookup_filter_eq_some.mp found).1, Option.map_some, own]
  have shrinks {sessionId : SessionId} {nickname : Nickname}
      (present : nicknameOf (world.elapse time) sessionId = some nickname) :
      nicknameOf world sessionId = some nickname := by
    obtain ⟨session, found, named⟩ := Option.bind_eq_some_iff.mp present
    unfold nicknameOf
    rw [(lookup_filter_eq_some.mp found).1]
    exact named
  refine ⟨fun nickname sessionId held => ?_, fun sessionId nickname present =>
    sound.hashed sessionId nickname (shrinks present), sound.named, fun sessionId rest split => ?_,
    fun sessionId nickname member held => sound.released sessionId nickname member (leases held)⟩
  · obtain ⟨own, drawn, accounted⟩ := sound.leased nickname sessionId (leases held)
    refine ⟨own, drawn, accounted.imp_left fun present => ?_⟩
    rw [spares sessionId ⟨nickname, present, leases held⟩]
    exact present
  · obtain ⟨drawn, secret⟩ := sound.secret sessionId rest split
    refine ⟨drawn, fun nickname held => secret.unleased nickname (leases held), ?_,
      secret.unmentioned⟩
    refine Option.eq_none_iff_forall_ne_some.mpr fun nickname present => ?_
    have impossible := shrinks present
    rw [secret.unnamed] at impossible
    cases impossible

/-- A run ends that accounts for no reservation. -/
theorem finish (sound : Sound name world (phase ::ₘ others))
    (settled : ∀ sessionId nickname, ¬ phase.Covers sessionId nickname) :
    Sound name world others where
  leased nickname sessionId held := by
    obtain ⟨own, drawn, accounted⟩ := sound.leased nickname sessionId held
    refine ⟨own, drawn, accounted.imp_right fun ⟨other, member, covered⟩ => ?_⟩
    rcases Multiset.mem_cons.mp member with rfl | member
    · exact absurd covered (settled sessionId nickname)
    · exact ⟨other, member, covered⟩
  hashed := sound.hashed
  named other member := sound.named other (Multiset.mem_cons_of_mem member)
  secret sessionId rest split := by
    subst split
    obtain ⟨drawn, secret⟩ := sound.secret sessionId (phase ::ₘ rest) (Multiset.cons_swap _ _ _)
    exact ⟨drawn, secret.unleased, secret.unnamed, fun other member =>
      secret.unmentioned other (Multiset.mem_cons_of_mem member)⟩
  released sessionId nickname member :=
    sound.released sessionId nickname (Multiset.mem_cons_of_mem member)

/-- A task starts. -/
theorem start (sound : Sound name world others) (task : SessionTask) :
    Sound name world (.initial task ::ₘ others) := by
  have unmentioned (sessionId : SessionId) : ¬ (Phase.initial task).Mentions sessionId := by
    intro mentions
    rcases mentions with impossible | ⟨_, impossible⟩
    · cases task <;> cases impossible
    · cases task <;> exact impossible
  refine ⟨fun nickname sessionId held => ?_, sound.hashed, fun other member sessionId nickname named
    => ?_, fun sessionId rest split => ?_, fun sessionId nickname member => ?_⟩
  · obtain ⟨own, drawn, accounted⟩ := sound.leased nickname sessionId held
    exact ⟨own, drawn, accounted.imp_right fun ⟨other, member, covered⟩ =>
      ⟨other, Multiset.mem_cons_of_mem member, covered⟩⟩
  · rcases Multiset.mem_cons.mp member with rfl | member
    · exact absurd (.inr ⟨nickname, named⟩) (unmentioned sessionId)
    · exact sound.named other member sessionId nickname named
  · rcases Multiset.cons_eq_cons.mp split with ⟨own, -⟩ | ⟨-, shared, rfl, rfl⟩
    · exact absurd (.inl own) (unmentioned sessionId)
    · obtain ⟨drawn, secret⟩ := sound.secret sessionId shared rfl
      refine ⟨drawn, secret.unleased, secret.unnamed, fun other member => ?_⟩
      rcases Multiset.mem_cons.mp member with rfl | member
      · exact unmentioned sessionId
      · exact secret.unmentioned other member
  · rcases Multiset.mem_cons.mp member with own | member
    · exact absurd (.inr ⟨nickname, by rw [← own]; exact ⟨rfl, rfl⟩⟩) (unmentioned sessionId)
    · exact sound.released sessionId nickname member

end Sound

/-! ## Ordinary steps -/

/-- No reservation and no nickname of a hash changes. -/
structure Keeps (before after : World) : Prop where
  leases : ∀ nickname sessionId, Holds after nickname sessionId ↔ Holds before nickname sessionId
  nicknames : ∀ sessionId, nicknameOf after sessionId = nicknameOf before sessionId
  issued : before.issued ⊆ after.issued

/-- Ids stay drawn. -/
theorem issued_subset {op : Op} {reply : op.Reply} (step : World.exec op world reply after) :
    world.issued ⊆ after.issued := by
  by_cases draws : op = .newUuid
  · subst draws
    rw [step.2]
    exact Finset.subset_insert _ _
  · rw [World.exec_issued step draws]

/-- Writing any other field keeps the nickname. -/
theorem nicknameOf_hset {field value : String} (other : field ≠ "nickname") (query : SessionId) :
    nicknameOf { world with redis := world.redis.hset (.session sessionId) field value } query =
      nicknameOf world query := by
  unfold nicknameOf
  rw [Redis.hset, lookup_insert_if]
  split
  · rename_i same
    subst same
    rw [Option.bind_some, Hash.get_set, if_neg other.symm]
    cases world.redis.sessions.lookup query <;> rfl
  · rfl

/-- An ordinary step keeps the reservations and the sessions. -/
theorem keeps_of_ordinary {op : Op} {reply : op.Reply} (step : World.exec op world reply after)
    (ordinary : op.Ordinary) : Keeps world after := by
  refine ⟨fun nickname sessionId => ?_, fun sessionId => ?_, issued_subset step⟩
  · by_cases writes : op.IsRedis Command.WritesStrings
    swap
    · unfold Holds
      rw [World.exec_strings step writes]
    cases op with
    | redis command =>
        obtain ⟨value, redis, effect, -, rfl⟩ := step
        cases command with
        | setNx key =>
            rcases Redis.exec_setNx effect with rfl | rfl
            · exact Iff.rfl
            · unfold Holds
              rw [lookup_insert_if]
              cases key with
              | nick => exact ordinary.elim
              | _ => rw [if_neg nofun]
        | compareAndDel key =>
            rcases Redis.exec_compareAndDel effect with rfl | rfl
            · exact Iff.rfl
            · unfold Holds
              rw [lookup_erase_if]
              cases key with
              | nick => exact ordinary.elim
              | _ => rw [if_neg nofun]
        | _ => exact writes.elim
    | _ => exact writes.elim
  · by_cases writes : op.IsRedis Command.WritesSessions
    swap
    · unfold nicknameOf
      rw [(World.exec_keepsRedis step).sessions writes]
    cases op with
    | redis command =>
        obtain ⟨value, redis, effect, -, rfl⟩ := step
        cases command with
        | hset key =>
            cases key with
            | binding => exact writes.elim
            | session =>
                obtain rfl : redis = _ := effect
                exact nicknameOf_hset ordinary sessionId
        | del key =>
            cases key with
            | binding => exact writes.elim
            | session => exact ordinary.elim
        | expire own =>
            obtain ⟨-, rfl⟩ := effect
            unfold nicknameOf
            rw [lookup_adjust]
            split
            · rename_i same
              rw [same]
              cases world.redis.sessions.lookup own <;> rfl
            · rfl
        | _ => exact writes.elim
    | _ => exact writes.elim

/-- A run stays where it is. -/
theorem Sound.keep (sound : Sound name world (phase ::ₘ others)) (keeps : Keeps world after) :
    Sound name after (phase ::ₘ others) := by
  refine sound.move (fun _ _ => (keeps.leases _ _).mp) (fun _ _ present => ?_) keeps.issued
    (fun _ _ _ _ accounted => ?_) (fun _ _ => .inl) (fun _ => id) fun sessionId nickname own => ?_
  · rwa [← keeps.nicknames]
  · rwa [keeps.nicknames]
  · rw [keeps.leases]
    exact sound.released sessionId nickname (own ▸ Multiset.mem_cons_self _ _)

/-- A run has read the nickname field of a session. -/
theorem Sound.learn (sound : Sound name world (.idle ::ₘ others)) (sessionId : SessionId) :
    Sound name world (Phase.learn sessionId (nicknameOf world sessionId) ::ₘ others) := by
  unfold Phase.learn
  split
  · rename_i nickname read
    have present := (Option.eq_some_of_filter_eq_some read)
    refine sound.move (fun _ _ => id) (fun _ _ => id) subset_rfl (fun _ _ _ _ accounted => ?_)
      (fun query name named => ?_) nofun nofun
    · exact .inl (accounted.resolve_right fun impossible => by
        rcases impossible with same | same <;> cases same)
    · obtain ⟨rfl, rfl⟩ := named
      exact .inr present
  · exact sound

/-- A run that accounts for no reservation and holds no secret. -/
def Phase.Calm (phase : Phase) : Prop :=
  phase = .idle ∨ ∃ sessionId nickname, phase = .knows sessionId nickname

/-- A value that is read leaves a task calm. -/
theorem Phase.learn_calm (sessionId : SessionId) (value : Option String) :
    (learn sessionId value).Calm := by
  unfold learn
  split
  · exact .inr ⟨_, _, rfl⟩
  · exact .inl rfl

/-- `HGETALL` and `HGET` read the nickname in the hash. -/
theorem read_nickname (world : World) (sessionId : SessionId) :
    (((world.redis.hash (.session sessionId)).map Hash.fields).getD ∅).lookup "nickname" =
        nicknameOf world sessionId ∧
      (world.redis.hash (.session sessionId)).bind (·.get "nickname") =
        nicknameOf world sessionId := by
  simp only [Redis.hash, nicknameOf]
  cases world.redis.sessions.lookup sessionId with
  | none => exact ⟨Finmap.lookup_empty _, rfl⟩
  | some session => exact ⟨rfl, rfl⟩

/-- An ordinary step of such a run teaches it at most the nickname of a session. -/
theorem advance_calm {op : Op} {reply : op.Reply} (calm : phase.Calm) (ordinary : op.Ordinary)
    (step : World.exec op world reply after) :
    Phase.advance phase op reply = phase ∨
      phase = .idle ∧ after = world ∧ ∃ sessionId,
        Phase.advance phase op reply = Phase.learn sessionId (nicknameOf world sessionId) := by
  rcases calm with rfl | ⟨sessionId, nickname, rfl⟩
  · cases op with
    | redis command =>
        obtain ⟨value, redis, effect, rfl, rfl⟩ := step
        cases command with
        | hgetall key =>
            cases key with
            | binding => exact .inl rfl
            | session sessionId =>
                obtain ⟨rfl, rfl⟩ := effect
                exact .inr ⟨rfl, rfl, sessionId,
                  congrArg (Phase.learn sessionId) (read_nickname world sessionId).1⟩
        | hget key field =>
            cases key with
            | binding => exact .inl rfl
            | session sessionId =>
                obtain ⟨rfl, rfl⟩ := effect
                by_cases named : field = "nickname"
                · subst named
                  exact .inr ⟨rfl, rfl, sessionId,
                    congrArg (Phase.learn sessionId) (read_nickname world sessionId).2⟩
                · exact .inl (if_neg named)
        | _ => exact .inl rfl
    | _ => exact .inl rfl
  · cases op with
    | redis command =>
        cases command with
        | del key =>
            cases key with
            | binding => exact .inl rfl
            | session => exact ordinary.elim
        | compareAndDel key =>
            cases key with
            | nick => exact ordinary.elim
            | _ => exact .inl rfl
        | _ => exact .inl rfl
    | _ => exact .inl rfl

/-- An ordinary step of a calm task keeps the invariant. -/
theorem ordinary_step (op : Op) (phase : Phase) (ordinary : op.Ordinary) (calm : phase.Calm)
    (state : World × Unit) (others : Multiset Phase)
    (sound : ∃ name, Sound name state.1 (phase ::ₘ others)) (_ : Allowed state.1 phase op) :
    True ∧ ∀ reply state', (threads Spares).system.exec op state reply state' →
      (∃ name, Sound name state'.1 (Phase.advance phase op reply ::ₘ others)) ∧
        (Phase.advance phase op reply).Calm := by
  obtain ⟨name, sound⟩ := sound
  refine ⟨trivial, fun reply state' effect => ?_⟩
  rcases advance_calm calm ordinary effect.1 with same | ⟨rfl, same, sessionId, learned⟩
  · rw [same]
    exact ⟨⟨name, sound.keep (keeps_of_ordinary effect.1 ordinary)⟩, calm⟩
  · rw [learned, same]
    exact ⟨⟨name, sound.learn sessionId⟩, Phase.learn_calm _ _⟩

/-- A program of ordinary steps. -/
theorem safe_of_ordinary {α : Type} {program : Call α} (only : program.Only Op.Ordinary)
    (calm : phase.Calm) : outline.Safe (fun last _ => last.Calm) phase program :=
  Outline.Safe.of_steps ordinary_step only calm

/-- A run that has read the nickname of a session takes an ordinary step. -/
theorem inert_knows {op : Op} (ordinary : op.Ordinary) :
    Outline.Inert outline (.knows sessionId nickname) op where
  asserts _ := trivial
  keeps state others reply state' sound effect := by
    obtain ⟨name, sound⟩ := sound
    exact ⟨name, Sound.keep sound (keeps_of_ordinary effect.1 ordinary)⟩
  still reply := by
    cases op with
    | redis command =>
        cases command with
        | del key =>
            cases key with
            | binding => rfl
            | session => exact ordinary.elim
        | compareAndDel key =>
            cases key with
            | nick => exact ordinary.elim
            | _ => rfl
        | _ => rfl
    | _ => rfl

/-- An ordinary step that teaches the run nothing. -/
theorem inert_idle {op : Op} (ordinary : op.Ordinary)
    (still : ∀ reply, Phase.advance .idle op reply = .idle) : Outline.Inert outline .idle op where
  asserts _ := trivial
  keeps state others reply state' sound effect := by
    obtain ⟨name, sound⟩ := sound
    exact ⟨name, Sound.keep sound (keeps_of_ordinary effect.1 ordinary)⟩
  still := still

/-! ## Releasing a nickname and deleting a session -/

/-- A release takes the nickname from the session that holds it. -/
theorem holds_release {key : Nickname} {owner : SessionId} {redis : Redis} {deleted : ℕ}
    (effect : world.redis.exec world.now (.compareAndDel (.nick key) owner) deleted redis)
    (query : Nickname) (other : SessionId) : Holds { world with redis } query other →
      Holds world query other ∧ ¬ (query = key ∧ other = owner) := by
  intro holds
  simp only [Redis.exec] at effect
  split at effect
  · obtain ⟨-, rfl⟩ := effect
    unfold Holds at holds
    rw [lookup_erase_if] at holds
    split at holds
    · cases holds
    · rename_i different
      exact ⟨holds, fun same => different (congrArg StringKey.nick same.1)⟩
  · rename_i unowned
    obtain ⟨-, rfl⟩ := effect
    refine ⟨holds, fun same => unowned ?_⟩
    rw [← same.1, ← same.2]
    exact holds

/-- A release changes no session. -/
theorem nicknameOf_release {key : Nickname} {owner : SessionId} {redis : Redis} {deleted : ℕ}
    (effect : world.redis.exec world.now (.compareAndDel (.nick key) owner) deleted redis)
    (query : SessionId) : nicknameOf { world with redis } query = nicknameOf world query := by
  unfold nicknameOf
  rw [(Redis.exec_keeps effect).sessions id]

/-- A logout releases the nickname it has read. -/
theorem Sound.release {redis : Redis} {deleted : ℕ}
    (sound : Sound name world (phase ::ₘ others))
    (effect : world.redis.exec world.now (.compareAndDel (.nick nickname) sessionId) deleted redis)
    (from' : phase = .knows sessionId nickname ∧ phase' = .released sessionId nickname ∨
      phase = .deleted sessionId nickname ∧ phase' = .idle) :
    Sound name { world with redis } (phase' ::ₘ others) := by
  refine sound.move (fun query other holds => (holds_release effect query other holds).1)
    (fun query name' present => ?_) subset_rfl (fun query name' own holds accounted => ?_)
    (fun query name' named => ?_) (fun query own => ?_) fun query name' own holds => ?_
  · rwa [nicknameOf_release effect] at present
  · rw [nicknameOf_release effect]
    refine .inl (accounted.resolve_right fun covered => ?_)
    rcases from' with ⟨rfl, -⟩ | ⟨rfl, -⟩
    · rcases covered with impossible | impossible <;> cases impossible
    · rcases covered with impossible | same
      · cases impossible
      · cases same
        exact (holds_release effect _ _ holds).2 ⟨rfl, rfl⟩
  · rcases from' with ⟨rfl, rfl⟩ | ⟨rfl, rfl⟩
    · exact .inl named
    · exact named.elim
  · rcases from' with ⟨-, rfl⟩ | ⟨-, rfl⟩ <;> cases own
  · rcases from' with ⟨-, rfl⟩ | ⟨-, rfl⟩
    · cases own
      exact (holds_release effect _ _ holds).2 ⟨rfl, rfl⟩
    · cases own

/-- A deleted session has no nickname. -/
theorem nicknameOf_delete (owner query : SessionId) :
    nicknameOf { world with redis := world.redis.delHash (.session owner) } query =
      if query = owner then none else nicknameOf world query := by
  unfold nicknameOf
  rw [Redis.delHash, lookup_erase_if]
  split <;> rfl

/-- A session is deleted whose reservation the run accounts for, or that has none. -/
theorem Sound.delete {owner : SessionId} (sound : Sound name world (phase ::ₘ others))
    (from' : (∃ nickname, phase = .knows owner nickname ∧ phase' = .deleted owner nickname) ∨
      (∃ nickname, phase = .released owner nickname ∧ phase' = .idle) ∨
      phase = .janitor ∧ phase' = .janitor ∧ ¬ Leased world owner) :
    Sound name { world with redis := world.redis.delHash (.session owner) }
      (phase' ::ₘ others) := by
  refine sound.move (fun _ _ => id) (fun query name' present => ?_) subset_rfl
    (fun query name' own holds accounted => ?_)
    (fun query name' named => ?_) (fun query own => ?_) fun query name' own holds => ?_
  · rw [nicknameOf_delete] at present
    split at present
    · cases present
    · exact present
  · have holds : Holds world name' query := holds
    have present : nicknameOf world query = some name' := by
      refine accounted.resolve_right fun covered => ?_
      rcases from' with ⟨_, rfl, -⟩ | ⟨_, rfl, -⟩ | ⟨rfl, -⟩ <;>
        rcases covered with impossible | impossible <;> cases impossible
    rw [nicknameOf_delete]
    split
    · rename_i same
      subst same
      rcases from' with ⟨nickname, rfl, rfl⟩ | ⟨nickname, rfl, -⟩ | ⟨-, -, unleased⟩
      · have read := (sound.named _ (Multiset.mem_cons_self _ _) query nickname ⟨rfl, rfl⟩).1
        rw [own, ← read]
        exact .inr (.inr rfl)
      · have read := (sound.named _ (Multiset.mem_cons_self _ _) query nickname ⟨rfl, rfl⟩).1
        refine absurd holds ?_
        rw [own, ← read]
        exact sound.released query nickname (Multiset.mem_cons_self _ _)
      · exact absurd ⟨name', present, holds⟩ unleased
    · exact .inl present
  · rcases from' with ⟨_, rfl, rfl⟩ | ⟨_, rfl, rfl⟩ | ⟨rfl, rfl, -⟩
    · exact .inl named
    · exact named.elim
    · exact named.elim
  · rcases from' with ⟨_, -, rfl⟩ | ⟨_, -, rfl⟩ | ⟨-, rfl, -⟩ <;> cases own
  · rcases from' with ⟨_, -, rfl⟩ | ⟨_, -, rfl⟩ | ⟨-, rfl, -⟩ <;> cases own

/-! ## The tasks -/

/-- The connector releases a nickname. -/
theorem releaseNickLease_safe :
    outline.Safe (fun last result => last = .idle ∧ result = .ok ()) (.deleted sessionId nickname)
      (Connector.releaseNickLease nickname sessionId).run := by
  refine Threads.safe_redis fun world _ others sound _ => ⟨trivial, fun _ redis effect _ => ?_⟩
  obtain ⟨name, sound⟩ := sound
  exact ⟨⟨name, Sound.release sound effect (.inr ⟨rfl, rfl⟩)⟩, rfl, rfl⟩

/-- The connector reads the nickname of a session. -/
theorem sessionGet_safe (sessionId : SessionId) :
    outline.Safe (fun last found => match found with
      | .ok (some session) => last = .knows sessionId session.nickname
      | _ => last = .idle) .idle (Connector.sessionGet sessionId).run := by
  refine Threads.safe_redis fun world _ others sound _ => ⟨trivial, fun value redis effect _ => ?_⟩
  obtain ⟨name, sound⟩ := sound
  obtain ⟨rfl, rfl⟩ := effect
  refine ⟨⟨name, ?_⟩, ?_⟩
  · have learned := sound.learn sessionId
    rw [← (read_nickname world sessionId).2] at learned
    exact learned
  · generalize (world.redis.hash (.session sessionId)).bind (·.get "nickname") = value
    change outline.Safe _ (Phase.learn sessionId value)
      (.ret (Except.ok ((value.filter (· ≠ "")).map Connector.SessionData.mk)))
    unfold Phase.learn
    cases value.filter (· ≠ "") <;> rfl

/-- The connector's logout deletes the session before it releases the nickname. -/
theorem logout_safe (sessionId : SessionId) :
    outline.Safe (fun last _ => last = .idle) .idle (Connector.logout sessionId).run := by
  refine Outline.Safe.except_bind (Outline.Safe.adapt ((sessionGet_safe sessionId).mono ?_))
  intro last found read
  match found with
  | .error _ => exact read
  | .ok none => exact read
  | .ok (some session) =>
      obtain rfl : last = _ := read
      refine Outline.Safe.except_bind (Outline.Safe.lift (Threads.safe_redis ?_))
      intro world _ others sound _
      refine ⟨trivial, fun _ redis effect _ => ?_⟩
      obtain ⟨name, sound⟩ := sound
      obtain ⟨-, rfl⟩ := effect
      refine ⟨⟨name, Sound.delete sound (.inl ⟨_, rfl, rfl⟩)⟩, ?_⟩
      refine Outline.Safe.except_bind (Outline.Safe.lift (releaseNickLease_safe.mono ?_))
      intro _ _ ends
      exact ends.1

/-- A new session is written under the nickname it has reserved. -/
theorem createSession_safe (config : Connector.Config) (nickname : Nickname) :
    outline.Safe (fun last _ => last = .idle) (.reserved sessionId nickname)
      (Connector.createSession config nickname sessionId).run := by
  have creates : outline.Safe (fun last created => last = .idle ∧ created = .ok ())
      (.reserved sessionId nickname)
      (Connector.sessionCreate sessionId nickname config.sessionTtlSecs).run := by
    refine Threads.safe_redis fun world _ others sound _ => ⟨trivial, fun _ redis effect _ => ?_⟩
    obtain ⟨name, sound⟩ := sound
    obtain rfl : redis = _ := effect
    refine ⟨⟨name, Sound.create sound rfl fun query => ?_⟩, ?_⟩
    · unfold nicknameOf
      rw [Redis.hset, lookup_insert_if]
      split
      · rw [Option.bind_some, Hash.get_set, if_pos rfl]
      · rfl
    have clears : (Op.redis (.hset (.session sessionId) "room_id" "")).Ordinary :=
      show "room_id" ≠ "nickname" by decide
    refine Outline.Safe.inert (inert_idle clears fun _ => rfl) fun _ _ _ wrote => ?_
    obtain ⟨⟨_, _, -, rfl, -⟩, -⟩ := wrote
    refine Outline.Safe.inert (inert_idle ?_ fun _ => rfl) fun _ _ _ timed => ?_
    · exact trivial
    obtain ⟨⟨_, _, -, rfl, -⟩, -⟩ := timed
    exact ⟨rfl, rfl⟩
  refine Outline.Safe.except_bind (Outline.Safe.lift (creates.mono ?_))
  intro last _ created
  obtain ⟨rfl, rfl⟩ := created
  rfl

/-- A calm task covers for no session. -/
theorem not_covers (idle : phase = .auth ∨ (∃ own, phase = .drawn own) ∨ phase = .janitor ∨
    phase.Calm) (sessionId : SessionId) (nickname : Nickname) :
    ¬ phase.Covers sessionId nickname := by
  intro covered
  rcases idle with rfl | ⟨own, rfl⟩ | rfl | rfl | ⟨own, name, rfl⟩ <;>
    rcases covered with impossible | impossible <;> cases impossible

/-- A login reserves the nickname before it writes the session. -/
theorem auth_safe (config : Connector.Config) (nickname : String) :
    outline.Safe (fun last _ => ∀ sessionId nickname, ¬ last.Covers sessionId nickname) .auth
      (Connector.auth config nickname).run := by
  unfold Connector.auth
  cases Connector.validateNickname nickname with
  | false => exact not_covers (.inl rfl)
  | true =>
      refine Outline.Safe.except_bind (Outline.Safe.lift (Threads.safe_step ?_))
      intro world _ others sound _
      refine ⟨trivial, fun drawn after effect _ => ?_⟩
      obtain ⟨name, sound⟩ := sound
      obtain ⟨fresh, rfl⟩ := effect
      refine ⟨⟨name, Sound.draw sound fresh.1⟩, ?_⟩
      refine Outline.Safe.except_bind (Outline.Safe.adapt (Threads.safe_redis ?_))
      intro world _ others sound _
      refine ⟨trivial, fun acquired redis effect _ => ?_⟩
      obtain ⟨name, sound⟩ := sound
      obtain ⟨rfl, written⟩ := effect
      cases free : (world.redis.strings.lookup (.nick (Connector.trim nickname))).isNone with
      | false =>
          rw [free] at written
          obtain rfl : redis = world.redis := written
          exact ⟨⟨name, sound⟩, not_covers (.inr (.inl ⟨drawn, rfl⟩))⟩
      | true =>
          rw [free] at written
          obtain rfl := written
          refine ⟨⟨_, Sound.reserve sound rfl⟩, ?_⟩
          refine (createSession_safe config (Connector.trim nickname)).mono ?_
          intro last _ same
          exact not_covers (.inr (.inr (.inr (.inl same))))

section Handlers

variable {state : State} {connection : ConnectionId}

/-- A node reads the nickname of a session from Redis. -/
theorem signalingSessionGet_safe (sessionId : SessionId) :
    outline.Safe (fun last found => match found with
      | .ok found => (found.filter (·.nickname ≠ "")).elim (last = .idle) fun session =>
          last = .knows sessionId session.nickname
      | .error _ => last = .idle) .idle (sessionGet sessionId).run := by
  refine Threads.safe_redis fun world _ others sound _ => ⟨trivial, fun fields redis effect _ => ?_⟩
  obtain ⟨name, sound⟩ := sound
  obtain ⟨rfl, rfl⟩ := effect
  refine ⟨⟨name, ?_⟩, ?_⟩
  · have learned := sound.learn sessionId
    rw [← (read_nickname world sessionId).1] at learned
    exact learned
  · generalize ((world.redis.hash (.session sessionId)).map Hash.fields).getD ∅ = fields
    change ((SessionState.ofFields fields).filter (·.nickname ≠ "")).elim
      (Phase.learn sessionId (fields.lookup "nickname") = .idle) fun session =>
        Phase.learn sessionId (fields.lookup "nickname") = .knows sessionId session.nickname
    unfold SessionState.ofFields Phase.learn
    split
    · rename_i empty
      rw [empty]
      rfl
    · cases fields.lookup "nickname" with
      | none => rfl
      | some nickname => by_cases filled : nickname = "" <;> simp [filled, Option.filter_some]

/-- A session that is checked has the nickname that is read. -/
theorem checkSession_safe (sessionId : SessionId) :
    outline.Safe (fun last result => match result with
      | .ok session => last = .knows sessionId session.nickname
      | .error _ => last = .idle) .idle (checkSession state connection sessionId).run := by
  refine Outline.Safe.except_bind (Outline.Safe.lift ?_)
  refine Outline.Safe.inert (inert_idle ?_ fun _ => rfl) fun _ context _ _ => ?_
  · exact trivial
  change outline.Safe _ Phase.idle (if context.sessionId.any (· ≠ sessionId) = true then _ else _ :
    WsCall SessionState).run
  split
  · rfl
  refine Outline.Safe.except_bind (Outline.Safe.except_bind (Outline.Safe.lift ?_))
  refine (Threads.safe_isRedisAvailable (inert_idle trivial fun _ => rfl)).mono
    fun last up available => ?_
  obtain ⟨rfl, rfl⟩ := available
  refine Outline.Safe.except_bind
    (Outline.Safe.adapt ((signalingSessionGet_safe sessionId).mono ?_))
  intro last found read
  cases found with
  | error error => exact read
  | ok found =>
      dsimp only [Except.mapError]
      have read : (found.filter (·.nickname ≠ "")).elim (last = .idle) fun session =>
        last = .knows sessionId session.nickname := read
      cases named : found.filter (·.nickname ≠ "") with
      | none =>
          rw [named] at read
          exact read
      | some session =>
          rw [named] at read
          obtain rfl : last = .knows sessionId session.nickname := read
          refine Outline.Safe.except_bind (Outline.Safe.lift ?_)
          refine Outline.Safe.inert (inert_knows ?_) fun _ _ _ _ => ?_
          · exact trivial
          refine Outline.Safe.except_bind (Outline.Safe.lift ?_)
          refine Outline.Safe.inert (inert_knows ?_) fun _ _ _ _ => rfl
          exact trivial

/-- A program of ordinary steps leaves a run with what it knows. -/
theorem safe_knows {α : Type} {program : Call α} (only : program.Only Op.Ordinary) :
    outline.Safe (fun last _ => last = .knows sessionId nickname) (.knows sessionId nickname)
      program :=
  Outline.Safe.of_only (only.mono fun _ => inert_knows)

/-- A logout releases the nickname of the session it deletes. -/
theorem logoutRedis_safe : outline.Safe (fun last _ => last.Calm) (.knows sessionId nickname)
    (logoutRedis state connection sessionId nickname).run := by
  have serves : Serves state connection Op.Ordinary := serves_of_ordinary fun _ => id
  refine Outline.Safe.except_bind (Outline.Safe.lift ?_)
  refine (Threads.safe_isRedisAvailable (inert_knows trivial)).mono fun last up available => ?_
  obtain ⟨rfl, rfl⟩ := available
  refine Outline.Safe.except_bind (Outline.Safe.lift ?_)
  refine Outline.Safe.inert (inert_knows ?_) fun _ context _ _ => ?_
  · exact trivial
  refine Outline.Safe.except_bind ((safe_knows (serves.uncountConnection
    (counts_of_ordinary fun _ => id))).mono ?_)
  intro last uncounted same
  subst same
  cases uncounted with
  | error error => exact .inr ⟨_, _, rfl⟩
  | ok _ =>
      refine Outline.Safe.except_bind (Outline.Safe.adapt (Threads.safe_redis ?_))
      intro world _ others sound _
      refine ⟨trivial, fun _ redis effect _ => ?_⟩
      obtain ⟨name, sound⟩ := sound
      refine ⟨⟨name, Sound.release sound effect (.inl ⟨rfl, rfl⟩)⟩, ?_⟩
      refine Outline.Safe.adapt (Threads.safe_redis ?_)
      intro world _ others sound _
      refine ⟨trivial, fun _ redis effect _ => ?_⟩
      obtain ⟨name, sound⟩ := sound
      obtain ⟨-, rfl⟩ := effect
      exact ⟨⟨name, Sound.delete sound (.inr (.inl ⟨_, rfl, rfl⟩))⟩, .inl rfl⟩

/-- A logout that ends leaves a calm task. -/
theorem handleLogout_safe (participants : Option (List String)) :
    outline.Safe (fun last _ => last.Calm) .idle
      (handleLogout state connection sessionId participants).run := by
  have serves : Serves state connection Op.Ordinary := serves_of_ordinary fun _ => id
  refine Outline.Safe.except_bind ((checkSession_safe sessionId).mono fun last checked known => ?_)
  cases checked with
  | error error => exact .inl known
  | ok session =>
      obtain rfl : last = .knows sessionId session.nickname := known
      have leaves (left : Option RoomId) : (leaveOnLogout state connection sessionId
          session.nickname participants left).run.Only Op.Ordinary := by
        cases left with
        | none => trivial
        | some roomId =>
            exact serves.leaveRoomOf participants (sets_of_ordinary (fun _ => id) sessionId "")
      refine Outline.Safe.except_bind ((safe_knows (leaves session.roomId)).mono ?_)
      intro last left same
      subst same
      cases left with
      | error error => exact .inr ⟨_, _, rfl⟩
      | ok _ =>
          refine Outline.Safe.except_bind (logoutRedis_safe.mono fun last ended calm => ?_)
          cases ended with
          | error error => exact calm
          | ok _ =>
              refine safe_of_ordinary ?_ calm
              refine (Program.Only.lift (issue_only (serves.sessions _))).except_bind fun _ => ?_
              refine (Program.Only.lift (issue_only trivial)).except_bind fun _ => ?_
              exact serves.sendMessage _

/-- A message that is handled leaves a calm task. -/
theorem handleText_safe (jwt : Jwt) (message : ClientMessage) :
    outline.Safe (fun last _ => last.Calm) .idle (handleText state connection jwt message) := by
  have calm : Phase.Calm .idle := .inl rfl
  have handles : outline.Safe (fun last _ => last.Calm) .idle
      (handleClientMessage state connection jwt message).run := by
    cases message with
    | logout sessionId participants => exact handleLogout_safe participants
    | _ => exact safe_of_ordinary (handleClientMessage_only (fun _ => id) jwt _ nofun) calm
  refine Outline.Safe.bind (handles.mono fun last result calm => ?_)
  exact safe_of_ordinary (reportError_only (fun _ => id) result) calm

end Handlers

/-- An iteration of the janitor. -/
theorem janitor_safe (config : Supervisor.Config) :
    outline.Safe (fun last _ => last = .janitor) .janitor
      (Supervisor.runJanitorIteration config).run := by
  have only : (Supervisor.runJanitorIteration config).run.Only fun op =>
      op.Ordinary ∨ ∃ sessionId, op = .redis (.del (.session sessionId)) :=
    runJanitorIteration_only (fun _ => .inl) config fun sessionId => .inr ⟨sessionId, rfl⟩
  refine Outline.Safe.of_steps ?_ only rfl
  intro op phase allowed same state others sound permitted
  subst same
  obtain ⟨name, sound⟩ := sound
  refine ⟨trivial, fun reply state' effect => ⟨⟨name, ?_⟩, rfl⟩⟩
  change Sound name state'.1 (.janitor ::ₘ others)
  rcases allowed with ordinary | ⟨sessionId, rfl⟩
  · exact sound.keep (keeps_of_ordinary effect.1 ordinary)
  · obtain ⟨⟨_, redis, deleted, -, same⟩, -, -⟩ := effect
    obtain ⟨-, rfl⟩ := deleted
    rw [same]
    exact sound.delete (.inr (.inr ⟨rfl, rfl, permitted⟩))

/-- Every task of the sessions keeps the invariant. -/
theorem program_safe (task : SessionTask) :
    outline.Safe outline.MayFinish (.initial task) task.program := by
  have ends {last : Phase} (settled : ∀ sessionId nickname, ¬ last.Covers sessionId nickname)
      (result : Unit) : outline.MayFinish last result := by
    intro state others sound
    obtain ⟨name, sound⟩ := sound
    exact ⟨name, Sound.finish sound settled⟩
  have calms {last : Phase} (calm : last.Calm) (result : Unit) : outline.MayFinish last result :=
    ends (not_covers (.inr (.inr (.inr calm)))) result
  have idle : Phase.Calm .idle := .inl rfl
  cases task with
  | auth config nickname =>
      exact Outline.Safe.mapConst
        ((auth_safe config nickname).mono fun _ _ settled => ends settled ())
  | logout sessionId =>
      exact Outline.Safe.mapConst
        ((logout_safe sessionId).mono fun _ _ same => calms (.inl same) ())
  | sessionRenew config sessionId =>
      exact Outline.Safe.mapConst ((safe_of_ordinary (sessionRenew_only (fun _ => id) config
        sessionId) idle).mono fun _ _ calm => calms calm ())
  | text state connection jwt message =>
      exact Outline.Safe.mapConst ((handleText_safe jwt message).mono fun _ _ calm => calms calm ())
  | disconnect state connection =>
      exact (safe_of_ordinary (cleanupConnection_only fun _ => id) idle).mono fun _ result calm =>
        calms calm result
  | closeRooms state sfuAddr reason =>
      exact (safe_of_ordinary (closeRoomsDueToSfuAddr_only (fun _ => id) sfuAddr reason) idle).mono
        fun _ result calm => calms calm result
  | renewLease sessionId ttlSecs =>
      exact Outline.Safe.mapConst ((safe_of_ordinary (renewSessionTtl_only (fun _ => id) sessionId
        ttlSecs) idle).mono fun _ _ calm => calms calm ())
  | janitor config =>
      exact Outline.Safe.bind ((janitor_safe config).mono fun _ _ same =>
        ends (not_covers (.inr (.inr (.inl same)))) ())

/-! ## Runs -/

/-- What happens besides keeps the invariant. -/
theorem stable : outline.Stable where
  start := by
    intro before others phase program after started sound
    obtain ⟨rfl, task, rfl, rfl⟩ := started
    obtain ⟨name, sound⟩ := sound
    exact ⟨⟨name, Sound.start sound task⟩, program_safe task⟩
  discard _ _ _ never := never.elim
  environment := by
    intro before others after changed sound
    obtain ⟨time, -, spares, elapsed⟩ := changed
    obtain ⟨name, sound⟩ := sound
    refine ⟨name, ?_⟩
    rw [elapsed]
    exact Sound.elapse sound spares

/-- The ids of all sessions have been drawn. -/
def Drawn (world : World) : Prop := ∀ sessionId ∈ world.redis.sessions, sessionId ∈ world.issued

/-- No run is in progress. -/
def begin (world : World) : (threads lets).system.Pool := ⟨(world, ()), []⟩

/-- **A reservation never outlives its session** in every run in which neither the janitor
nor expiry takes away a session whose nickname is reserved for it. -/
theorem kept_of_quiescent {world : World} (drawn : Drawn world) (kept : Kept world)
    {pool : (threads Spares).system.Pool} (run : Reaches guard (begin world) pool)
    (idle : pool.Quiescent) : Kept pool.state.1 := by
  have issued {sessionId : SessionId} {nickname : Nickname}
      (present : nicknameOf world sessionId = some nickname) : sessionId ∈ world.issued := by
    obtain ⟨session, found, -⟩ := Option.bind_eq_some_iff.mp present
    exact drawn sessionId (Finmap.mem_of_lookup_eq_some found)
  have named {sessionId : SessionId} {nickname : Nickname}
      (present : nicknameOf world sessionId = some nickname) :
      nickname = (nicknameOf world sessionId).getD "" := by
    rw [present]
    rfl
  have initial : outline.Holds (begin world) := by
    refine .of_quiescent ⟨fun sessionId => (nicknameOf world sessionId).getD "",
      fun nickname sessionId held => ?_, fun sessionId nickname present => ?_,
      fun _ member => absurd member (Multiset.notMem_zero _),
      fun _ _ split => absurd split.symm Multiset.cons_ne_zero,
      fun _ _ member => absurd member (Multiset.notMem_zero _)⟩
    · have present := kept nickname sessionId held
      exact ⟨named present, issued present, .inl present⟩
    · exact ⟨named present, issued present⟩
  obtain ⟨name, sound⟩ := (initial.reaches stable run).quiescent idle
  intro nickname sessionId held
  obtain ⟨-, -, accounted⟩ := Sound.leased sound nickname sessionId held
  exact accounted.resolve_right fun ⟨_, member, _⟩ => Multiset.notMem_zero _ member

/-! ## A session that expires -/

instance (world : World) (op : Op) (reply : op.Reply) :
    Decidable ((threads lets).assumed world op reply) := inferInstanceAs (Decidable True)

instance decidableAllowed (world : World) (phase : Phase) (op : Op) :
    Decidable (Allowed world phase op) := by
  unfold Allowed
  split <;> infer_instance

instance : ∀ state phase op others,
    Decidable ((guard : (threads lets).system.Guard) state phase op others) :=
  fun state phase op _ => decidableAllowed state.1 phase op

/-- A request for a session of Alice. -/
def aliceAuth : (threads lets).system.Thread :=
  ⟨.initial (.auth ⟨3600⟩ "alice"), (SessionTask.auth ⟨3600⟩ "alice").program⟩

/-- Alice may log in. -/
theorem reaches_aliceAuth {guard : (threads lets).system.Guard} :
    Reaches guard (begin World.fresh) ⟨(World.fresh, ()), [aliceAuth]⟩ := by
  refine reaches_start fun thread member others => ?_
  obtain rfl := List.mem_singleton.mp member
  exact ⟨rfl, .auth ⟨3600⟩ "alice", rfl, rfl⟩

/-- The request draws an id and runs to its end. -/
def authenticating : List (ℕ × Hint) := (0, { names := ["session-1"] }) :: turns 0 5

/-- In a fresh world every session has its nickname. -/
theorem kept_fresh : Drawn World.fresh ∧ Kept World.fresh := by
  refine ⟨fun sessionId present => absurd present Finmap.notMem_empty, fun _ _ held => ?_⟩
  cases held

/-- Alice has a session and the nickname. -/
theorem kept_alice : ∃ pool : (threads Spares).system.Pool,
    Reaches guard (begin World.fresh) pool ∧ pool.Quiescent ∧ Kept pool.state.1 := by
  have replayed : ((threads Spares).sampler.replay guard authenticating
      ⟨(World.fresh, ()), [aliceAuth]⟩).any (fun pool => pool.threads.isEmpty) = true := by
    decide +kernel
  obtain ⟨pool, run, idle⟩ := Sampler.exists_of_replay replayed
  have run := reaches_aliceAuth.trans run
  have idle : pool.Quiescent := List.isEmpty_iff.mp idle
  exact ⟨pool, run, idle, kept_of_quiescent kept_fresh.1 kept_fresh.2 run idle⟩

/-- **A nickname reserved for good**: the session expires, and the reservation stays. -/
theorem nickname_outlives_session : Drawn World.fresh ∧ Kept World.fresh ∧
    ∃ pool : (threads fun _ _ => True).system.Pool,
      Reaches unguarded (begin World.fresh) pool ∧ pool.Quiescent ∧ ¬ Kept pool.state.1 := by
  have replayed : ((threads fun _ _ => True).sampler.replay unguarded authenticating
      ⟨(World.fresh, ()), [aliceAuth]⟩).any (fun pool => pool.threads.isEmpty &&
        decide (pool.state.1.now = 0 ∧ Holds (pool.state.1.elapse 3600001) "alice" "session-1" ∧
          nicknameOf (pool.state.1.elapse 3600001) "session-1" = none)) = true := by
    decide +kernel
  obtain ⟨pool, run, passed⟩ := Sampler.exists_of_replay replayed
  obtain ⟨idle, expires⟩ := Bool.and_eq_true_iff.mp passed
  obtain ⟨early, held, gone⟩ := of_decide_eq_true expires
  have lapses : Step unguarded pool ⟨(pool.state.1.elapse 3600001, ()), pool.threads⟩ :=
    .environment ⟨3600001, by rw [early]; exact Nat.zero_le _, trivial, rfl⟩
  refine ⟨kept_fresh.1, kept_fresh.2, _, (reaches_aliceAuth.trans run).tail lapses,
    List.isEmpty_iff.mp idle, fun kept => ?_⟩
  have impossible := kept "alice" "session-1" held
  rw [gone] at impossible
  cases impossible

end Callifornia.Sessions.Reservation
