import Callifornia.Deployment.Janitor
import Callifornia.Deployment.Pool
import Callifornia.Supervisor.Cleanup

/-! # The rooms and sessions of a healthy node

The janitor knows a node by its last heartbeat, which only a probe writes when the node answers.
While the supervisor is down nobody writes it, and when the supervisor starts its janitor does not
wait for the first probe. What an iteration has read of a node that it takes for alive goes on to
hold, unless a room of the node gets its first members, or the node takes over a session, at the
wrong moment.
-/

namespace Callifornia.Deployment

open Concurrency Concurrency.Program Concurrency.System FiniteMap Store Signaling

variable {restriction : Restriction} {node : NodeId} {world after : World} {op : Op}
  {reply answer : op.Reply} {known : Knowledge} {others : Multiset Knowledge} {sweep : Sweep}
  {roomId : RoomId} {sessionId : SessionId}

/-! ## What a node owns -/

/-- The binding of the room names the node as its owner. -/
def OwnsRoom (node : NodeId) (world : World) (roomId : RoomId) : Prop :=
  (world.redis.bindings.lookup roomId).bind (·.get "signaling_owner_id") = some node

instance (node : NodeId) (world : World) (roomId : RoomId) :
    Decidable (OwnsRoom node world roomId) :=
  inferInstanceAs (Decidable (_ = _))

/-- The session names the node as its owner. -/
def OwnsSession (node : NodeId) (world : World) (sessionId : SessionId) : Prop :=
  (world.redis.sessions.lookup sessionId).bind (·.hash.get "signaling_owner_id") = some node

/-- **Nothing of the node is deleted**: no binding it owns, no member of such a room, no session
it owns. -/
structure SparesNode (node : NodeId) (before after : World) : Prop where
  bindings : ∀ roomId, OwnsRoom node before roomId →
    after.redis.bindings.lookup roomId = before.redis.bindings.lookup roomId
  members : ∀ roomId nickname, OwnsRoom node before roomId →
    (roomId, nickname) ∈ before.redis.members → (roomId, nickname) ∈ after.redis.members
  sessions : ∀ sessionId, OwnsSession node before sessionId →
    after.redis.sessions.lookup sessionId = before.redis.sessions.lookup sessionId

/-- The iteration does not mind a new member of the room: it has not begun its scan of the bindings,
it has ended its scan of the member sets, or the first scan covers the room. -/
def Sweep.Admits (sweep : Sweep) (roomId : RoomId) : Prop :=
  sweep.began = false ∨ sweep.ended = true ∨ roomId ∈ sweep.covered

instance (sweep : Sweep) (roomId : RoomId) : Decidable (sweep.Admits roomId) :=
  inferInstanceAs (Decidable (_ ∨ _ ∨ _))

instance (sweep : Sweep) (sessionId : SessionId) : Decidable (sweep.Condemns sessionId) :=
  decidable_of_iff (∃ read ∈ sweep.session, read.1 = sessionId ∧
      ∃ alive ∈ sweep.alive, read.2 ∉ alive) <| by
    constructor
    · rintro ⟨⟨_, owner⟩, read, rfl, dead⟩
      exact ⟨owner, read, dead⟩
    · rintro ⟨owner, read, dead⟩
      exact ⟨(sessionId, owner), read, rfl, dead⟩

/-- An iteration reads who is alive when the store has a heartbeat of the node that is not too old;
a member enters a room of the node, and the node takes over a session, when no iteration minds. -/
def Heeds (node : NodeId) (world : World) (known : Knowledge) (others : Multiset Knowledge) :
    Op → Prop
  | .redis (.zrangeByScore .signalingNodes oldest) => known.sweep.isSome →
      ∃ seen ∈ (world.redis.scores .signalingNodes).lookup node, oldest ≤ seen
  | .redis (.sadd roomId _) => OwnsRoom node world roomId →
      ∀ other ∈ others, ∀ sweep ∈ other.sweep, sweep.Admits roomId
  | .redis (.hset (.session sessionId) field owner) => field = "signaling_owner_id" → owner = node →
      ∀ other ∈ others, ∀ sweep ∈ other.sweep, ¬ sweep.Condemns sessionId
  | _ => True

/-- What `Heeds` says, as a test. -/
def heeds (node : NodeId) (world : World) (known : Knowledge) (others : Multiset Knowledge) :
    Op → Bool
  | .redis (.zrangeByScore .signalingNodes oldest) => decide (known.sweep.isSome →
      ∃ seen ∈ (world.redis.scores .signalingNodes).lookup node, oldest ≤ seen)
  | .redis (.sadd roomId _) => decide (OwnsRoom node world roomId →
      ∀ other ∈ others, ∀ sweep ∈ other.sweep, sweep.Admits roomId)
  | .redis (.hset (.session sessionId) field owner) =>
      decide (field = "signaling_owner_id" → owner = node →
        ∀ other ∈ others, ∀ sweep ∈ other.sweep, ¬ sweep.Condemns sessionId)
  | _ => true

/-- The test decides the condition. -/
theorem heeds_iff {others : Multiset Knowledge} :
    heeds node world known others op = true ↔ Heeds node world known others op := by
  unfold heeds Heeds
  split
  · exact decide_eq_true_iff
  · exact decide_eq_true_iff
  · exact decide_eq_true_iff
  · exact iff_of_true rfl trivial

instance instDecidableHeeds (node : NodeId) (world : World) (known : Knowledge)
    (others : Multiset Knowledge) (op : Op) : Decidable (Heeds node world known others op) :=
  decidable_of_iff _ heeds_iff

def heeded (restriction : Restriction) (node : NodeId) : (deployment restriction).Guard :=
  fun world known op others => Heeds node world known others op

instance (state : (deployment restriction).State) (phase : (deployment restriction).Phase)
    (op : Op) (others : Multiset (deployment restriction).Phase) :
    Decidable (heeded restriction node state phase op others) :=
  instDecidableHeeds node state phase others op

/-- **What an iteration has read is true of the node.** -/
structure Informed (node : NodeId) (world : World) (sweep : Sweep) : Prop where
  alive : ∀ alive ∈ sweep.alive, node ∈ alive
  /-- Until the second scan ends, the first one covers every room of the node that has members. -/
  covers : sweep.began = true → sweep.ended = false → ∀ roomId, OwnsRoom node world roomId →
    ∀ nickname, (roomId, nickname) ∈ world.redis.members → roomId ∈ sweep.covered
  orphans : ∀ roomId, sweep.Orphans roomId → ¬ OwnsRoom node world roomId
  reclaims : ∀ roomId, sweep.Reclaims roomId → ¬ OwnsRoom node world roomId
  condemns : ∀ sessionId, sweep.Condemns sessionId → ¬ OwnsSession node world sessionId

/-! ## What the other tasks change -/

/-- A node gets a room only when the room is bound. -/
theorem owns_room_before (steps : Steps op world reply after) (owns : OwnsRoom node after roomId) :
    OwnsRoom node world roomId ∨ Binds roomId op := by
  refine or_iff_not_imp_right.mpr fun other => ?_
  rcases steps.effect with rfl | ⟨answer, effect⟩
  · exact owns
  · unfold OwnsRoom at owns ⊢
    rcases binding_kept effect other with same | gone
    · rwa [same] at owns
    · rw [gone] at owns
      cases owns

/-- A node gets a session only by taking it over. -/
theorem owns_session_before (steps : Steps op world reply after)
    (owns : OwnsSession node after sessionId) : OwnsSession node world sessionId ∨
      op = .redis (.hset (.session sessionId) "signaling_owner_id" node) := by
  rcases steps.effect with rfl | ⟨answer, effect⟩
  · exact .inl owns
  · by_cases writes : op.IsRedis Command.WritesSessions
    · cases op with
      | redis command =>
          obtain ⟨value, redis, effect, -, rfl⟩ := effect
          cases command with
          | hset key field value =>
              cases key with
              | binding => exact writes.elim
              | session other =>
                  obtain rfl : redis = _ := effect
                  change ((world.redis.sessions.insert other _).lookup sessionId).bind _ = _ at owns
                  rw [lookup_insert_if] at owns
                  split at owns
                  · rename_i same
                    subst same
                    rw [Option.bind_some, Hash.get_set] at owns
                    split at owns
                    · rename_i named
                      subst named
                      obtain rfl := Option.some.inj owns
                      exact .inr rfl
                    · rw [Option.bind_map] at owns
                      exact .inl owns
                  · exact .inl owns
          | del key =>
              cases key with
              | binding => exact writes.elim
              | session other =>
                  obtain ⟨-, rfl⟩ := effect
                  change ((world.redis.sessions.erase other).lookup sessionId).bind _ = _ at owns
                  rw [lookup_erase_if] at owns
                  split at owns
                  · cases owns
                  · exact .inl owns
          | expire other seconds =>
              obtain ⟨-, rfl⟩ := effect
              change ((adjust world.redis.sessions other _).lookup sessionId).bind _ = _ at owns
              rw [lookup_adjust] at owns
              split at owns
              · rename_i same
                subst same
                rw [Option.bind_map] at owns
                exact .inl owns
              · exact .inl owns
          | _ => exact writes.elim
      | _ => exact writes.elim
    · refine .inl ?_
      unfold OwnsSession at owns ⊢
      rwa [(World.exec_keepsRedis effect).sessions writes] at owns

namespace Informed

/-- What is read stays true when no iteration minds what is new. -/
theorem kept (informed : Informed node world sweep)
    (rooms : ∀ roomId, OwnsRoom node after roomId → OwnsRoom node world roomId ∨
      ¬ sweep.Mentions roomId ∧ ∀ nickname, (roomId, nickname) ∉ after.redis.members)
    (members : ∀ roomId nickname, OwnsRoom node world roomId →
      (roomId, nickname) ∈ after.redis.members →
        (roomId, nickname) ∈ world.redis.members ∨ sweep.Admits roomId)
    (sessions : ∀ sessionId, OwnsSession node after sessionId →
      OwnsSession node world sessionId ∨ ¬ sweep.Condemns sessionId) :
    Informed node after sweep := by
  refine ⟨informed.alive, fun began goes roomId owns nickname member => ?_,
    fun roomId orphan owns => ?_, fun roomId reclaims owns => ?_, fun sessionId condemns owns => ?_⟩
  · rcases rooms roomId owns with owned | ⟨-, empty⟩
    · rcases members roomId nickname owned member with old | early | late | covered
      · exact informed.covers began goes roomId owned nickname old
      · cases early.symm.trans began
      · cases late.symm.trans goes
      · exact covered
    · exact absurd member (empty nickname)
  · rcases rooms roomId owns with owned | ⟨unseen, -⟩
    · exact informed.orphans roomId orphan owned
    · exact unseen (.inl orphan.1)
  · rcases rooms roomId owns with owned | ⟨unseen, -⟩
    · exact informed.reclaims roomId reclaims owned
    · obtain ⟨owner, read, -⟩ := reclaims
      exact unseen (.inr ⟨owner, read⟩)
  · exact (sessions sessionId owns).elim (informed.condemns sessionId condemns)
      (absurd condemns)

/-- A step of any task leaves true what another one, or it itself, has read before. -/
theorem step (informed : Informed node world sweep) (ledger : Ledger world (known ::ₘ others))
    (own : ∃ reader ∈ known ::ₘ others, sweep ∈ reader.sweep) (traces : known.Traces op)
    (steps : Steps op world reply after)
    (enters : ∀ roomId nickname, op = .redis (.sadd roomId nickname) →
      OwnsRoom node world roomId → sweep.Admits roomId)
    (takes : ∀ sessionId, op = .redis (.hset (.session sessionId) "signaling_owner_id" node) →
      ¬ sweep.Condemns sessionId) : Informed node after sweep := by
  refine informed.kept (fun roomId owns => ?_) (fun roomId nickname owns member => ?_)
    fun sessionId owns => ?_
  · refine (owns_room_before steps owns).imp_right fun binds => ?_
    have unused : ¬ Used roomId world (known ::ₘ others) := by
      cases op with
      | redis command =>
          cases command with
          | assignRoomToSfu bound =>
              obtain rfl : bound = roomId := binds
              exact ledger.unused traces
          | hset key =>
              cases key with
              | binding => exact traces.elim
              | session => exact binds.elim
          | _ => exact binds.elim
      | _ => exact binds.elim
    obtain ⟨reader, member, reads⟩ := own
    refine ⟨fun mentions => unused (.mentioned reader member (.inr ⟨sweep, reads, mentions⟩)), ?_⟩
    intro nickname joined
    rcases steps.effect with rfl | ⟨answer, effect⟩
    · exact unused (.joined nickname joined)
    · rcases exec_members effect joined with before | rfl
      · exact unused (.joined nickname before)
      · exact binds.elim
  · rcases steps.effect with rfl | ⟨answer, effect⟩
    · exact .inl member
    · exact (exec_members effect member).imp_right fun same => enters roomId nickname same owns
  · exact (owns_session_before steps owns).imp_right (takes sessionId)

/-- An iteration that has read nothing. -/
theorem blank : Informed node world {} := by
  refine ⟨fun alive listed => ?_, fun began => ?_, fun roomId orphan => ?_,
    fun roomId reclaims => ?_, fun sessionId condemns => ?_⟩
  · cases listed
  · cases began
  · exact absurd orphan.1 (Finset.notMem_empty _)
  · obtain ⟨owner, read, -⟩ := reclaims
    cases read
  · obtain ⟨owner, read, -⟩ := condemns
    cases read

/-- Sessions may be lost. -/
theorem shrink (informed : Informed node world sweep)
    (bindings : after.redis.bindings = world.redis.bindings)
    (members : after.redis.members = world.redis.members)
    (sessions : ∀ sessionId session, after.redis.sessions.lookup sessionId = some session →
      world.redis.sessions.lookup sessionId = some session) : Informed node after sweep := by
  refine informed.kept (fun roomId owns => .inl ?_) (fun roomId nickname _ member => .inl ?_)
    fun sessionId owns => .inl ?_
  · unfold OwnsRoom at owns ⊢
    rwa [bindings] at owns
  · rwa [members] at member
  · obtain ⟨session, found, named⟩ := Option.bind_eq_some_iff.mp owns
    exact Option.bind_eq_some_iff.mpr ⟨session, sessions sessionId session found, named⟩

/-- An iteration that forgets the session it has read. -/
theorem forget (informed : Informed node world sweep) :
    Informed node world { sweep with session := none } := by
  refine ⟨informed.alive, informed.covers, informed.orphans, informed.reclaims, ?_⟩
  intro sessionId condemns
  obtain ⟨owner, read, -⟩ := condemns
  cases read

/-- A page of the scan of the bindings. -/
theorem scanBindings (informed : Informed node world sweep) {cursor next : Cursor}
    {page : List RoomId} (resumes : ∀ owed ∈ cursor, sweep.began = true ∧ sweep.owed = owed)
    (scans : world.redis.Scans .bindings cursor page next) :
    Informed node world
      { sweep with
        began := true
        found := sweep.found ∪ page.toFinset
        owed := next.getD ∅ } := by
  obtain ⟨-, rest⟩ := scans
  have owed : next.getD ∅ = (cursor.map (· ∩ world.redis.bindings.keys)).getD
      world.redis.bindings.keys \ page.toFinset := by
    cases next with
    | none => exact (show _ = ∅ from rest).symm
    | some left => exact rest
  -- A room that is bound stays covered, and the first page covers every one.
  have covers (roomId : RoomId) (owns : OwnsRoom node world roomId)
      (before : cursor = none ∨ roomId ∈ sweep.covered) :
      roomId ∈ sweep.found ∪ page.toFinset ∪ next.getD ∅ := by
    obtain ⟨hash, bound, -⟩ := Option.bind_eq_some_iff.mp owns
    have present : roomId ∈ world.redis.bindings.keys :=
      Finmap.mem_keys.mpr (Finmap.mem_of_lookup_eq_some bound)
    rw [owed, Finset.mem_union, Finset.mem_union, Finset.mem_sdiff]
    by_cases listed : roomId ∈ page.toFinset
    · exact .inl (.inr listed)
    · cases cursor with
      | none => exact .inr ⟨present, listed⟩
      | some earlier =>
          rcases before with none | covered
          · cases none
          · rcases Finset.mem_union.mp covered with found | due
            · exact .inl (.inl found)
            · rw [(resumes earlier rfl).2] at due
              exact .inr ⟨Finset.mem_inter.mpr ⟨due, present⟩, listed⟩
  refine ⟨informed.alive, fun _ goes roomId owns nickname member => ?_,
    fun roomId orphan owns => ?_, informed.reclaims, informed.condemns⟩
  · refine covers roomId owns ?_
    cases cursor with
    | none => exact .inl rfl
    | some earlier =>
        exact .inr (informed.covers (resumes earlier rfl).1 goes roomId owns nickname member)
  · by_cases covered : roomId ∈ sweep.covered
    · exact orphan.2 (covers roomId owns (.inr covered))
    · exact informed.orphans roomId ⟨orphan.1, covered⟩ owns

/-- A page of the scan of the member sets. -/
theorem scanMembers (informed : Informed node world sweep) {cursor next : Cursor}
    {page : List RoomId} (goes : sweep.began = true ∧ sweep.ended = false)
    (scans : world.redis.Scans .members cursor page next) :
    Informed node world
      { sweep with
        listed := sweep.listed ∪ page.toFinset
        ended := next.isNone } := by
  obtain ⟨present, -⟩ := scans
  refine ⟨informed.alive, fun began _ => informed.covers began goes.2, fun roomId orphan owns => ?_,
    informed.reclaims, informed.condemns⟩
  rcases Finset.mem_union.mp orphan.1 with listed | listed
  · exact informed.orphans roomId ⟨listed, orphan.2⟩ owns
  · obtain ⟨⟨room, nickname⟩, member, rfl⟩ :=
      Finset.mem_image.mp (present roomId (List.mem_toFinset.mp listed))
    exact orphan.2 (informed.covers goes.1 goes.2 room owns nickname member)

/-- A binding that is read names another owner, if it is reclaimed. -/
theorem readBinding (informed : Informed node world sweep) {bound : RoomId} :
    Informed node world
      { sweep with
        binding := ((((world.redis.bindings.lookup bound).map Hash.fields).getD ∅).lookup
          "signaling_owner_id").map fun owner => (bound, owner) } := by
  refine ⟨informed.alive, informed.covers, informed.orphans, fun roomId reclaims owns => ?_,
    informed.condemns⟩
  obtain ⟨owner, read, alive, listed, dead⟩ := reclaims
  obtain ⟨_, named, same⟩ := Option.map_eq_some_iff.mp read
  obtain ⟨rfl, rfl⟩ := Prod.mk.inj same
  obtain ⟨hash, found, owned⟩ := Option.bind_eq_some_iff.mp owns
  rw [found] at named
  obtain rfl := Option.some.inj (owned.symm.trans named)
  exact dead (informed.alive alive listed)

/-- A session whose owner is read has another one, if it is condemned. -/
theorem readSession (informed : Informed node world sweep) {other : SessionId} :
    Informed node world
      { sweep with
        session := ((world.redis.sessions.lookup other).bind
          (·.hash.get "signaling_owner_id")).map fun owner => (other, owner) } := by
  refine ⟨informed.alive, informed.covers, informed.orphans, informed.reclaims, ?_⟩
  intro sessionId condemns owns
  obtain ⟨owner, read, alive, listed, dead⟩ := condemns
  obtain ⟨_, named, same⟩ := Option.map_eq_some_iff.mp read
  obtain ⟨rfl, rfl⟩ := Prod.mk.inj same
  obtain rfl := Option.some.inj ((show _ = some node from owns).symm.trans named)
  exact dead (informed.alive alive listed)

/-- What an iteration reads is true. -/
theorem read (informed : Informed node after sweep) (allows : sweep.Allows op)
    (heard : ∀ oldest, op = .redis (.zrangeByScore .signalingNodes oldest) →
      ∃ seen ∈ (world.redis.scores .signalingNodes).lookup node, oldest ≤ seen)
    (effect : World.exec op world reply after) : Informed node after (sweep.advance op reply) := by
  cases op with
  | redis command =>
      obtain ⟨value, redis, effect, rfl, rfl⟩ := effect
      cases command with
      | zrangeByScore set oldest =>
          cases set with
          | roomLoad | instanceLoad => exact informed
          | signalingNodes =>
              obtain ⟨binding, session⟩ := allows
              obtain ⟨seen, found, recent⟩ := heard oldest rfl
              refine ⟨fun alive same => ?_, informed.covers, informed.orphans, ?_, ?_⟩
              · obtain rfl := Option.some.inj same
                refine effect.1.mem_iff.mpr (Finmap.mem_keys.mpr (Finmap.mem_iff.mpr ⟨seen, ?_⟩))
                exact lookup_filter_eq_some.mpr ⟨found, recent⟩
              · intro roomId reclaims
                obtain ⟨owner, read, -⟩ := reclaims
                cases binding.symm.trans read
              · intro sessionId condemns
                obtain ⟨owner, read, -⟩ := condemns
                cases session.symm.trans read
      | scan pattern cursor =>
          obtain ⟨scans, rfl⟩ := effect
          cases pattern with
          | bindings => exact informed.scanBindings allows scans
          | members => exact informed.scanMembers allows scans
          | sessions => exact informed
      | hgetall key =>
          cases key with
          | session => exact informed
          | binding bound =>
              obtain ⟨rfl, rfl⟩ := effect
              exact informed.readBinding
      | hget key field =>
          cases key with
          | binding => exact informed
          | session other =>
              obtain rfl : field = "signaling_owner_id" := allows
              obtain ⟨rfl, rfl⟩ := effect
              have same : (world.redis.hash (.session other)).bind (·.get "signaling_owner_id") =
                  (world.redis.sessions.lookup other).bind
                    (·.hash.get "signaling_owner_id") := Option.bind_map
              change Informed node world { sweep with session := _ }
              rw [same]
              exact informed.readSession
      | del key =>
          cases key with
          | binding => exact informed
          | session => exact informed.forget
      | _ => exact informed
  | _ => exact informed

/-- A call that failed tells an iteration nothing. -/
theorem of_fails (informed : Informed node after sweep) (fails : Fails op reply) :
    Informed node after (sweep.advance op reply) := by
  cases op with
  | redis command =>
      cases reply with
      | ok value => exact fails.elim
      | error failure =>
          cases command with
          | zrangeByScore set => cases set <;> exact informed
          | scan pattern => cases pattern <;> exact informed
          | hgetall key | hget key => cases key <;> exact informed
          | del key =>
              cases key with
              | binding => exact informed
              | session => exact informed.forget
          | _ => exact informed
  | _ => exact informed

end Informed

/-- **Step lemma.** What the iterations have read of the node goes on to be true. -/
theorem keeps_informed : (tracing restriction).Keeps (heeded restriction node) fun world tasks =>
    ∀ reader ∈ tasks, ∀ sweep ∈ reader.sweep, Informed node world sweep where
  step world known others op reply after ledger informed allowed heeds step := by
    obtain ⟨steps, -⟩ := step
    obtain ⟨traces, allows⟩ := allowed
    have heeds : Heeds node world known others op := heeds
    intro reader member sweep reads
    rcases Multiset.mem_cons.mp member with rfl | apart
    · obtain ⟨earlier, own, rfl⟩ := Option.map_eq_some_iff.mp reads
      have allows := allows earlier own
      have self : known ∈ known ::ₘ others := Multiset.mem_cons_self _ _
      have before : Informed node after earlier := by
        refine (informed known self earlier own).step ledger ⟨known, self, own⟩ traces steps ?_ ?_
        · intro roomId nickname same
          subst same
          exact allows.elim
        · intro sessionId same
          subst same
          exact allows.elim
      rcases steps.truthful with fails | effect
      · exact before.of_fails fails
      · refine before.read allows (fun oldest same => ?_) effect
        subst same
        exact heeds (Option.isSome_iff_exists.mpr ⟨earlier, own⟩)
    · have listed : reader ∈ known ::ₘ others := Multiset.mem_cons_of_mem apart
      refine (informed reader listed sweep reads).step ledger ⟨reader, listed, reads⟩ traces steps
        ?_ ?_
      · intro roomId nickname same owns
        subst same
        exact heeds owns reader apart sweep reads
      · intro sessionId same
        subst same
        exact heeds rfl rfl reader apart sweep reads
  start world others known program after started informed := by
    obtain ⟨task, -, rfl, -, rfl⟩ := started
    intro reader member sweep reads
    have same := (opened_kept world task).1
    have before : Informed node world sweep := by
      rcases Multiset.mem_cons.mp member with rfl | member
      · cases task with
        | janitor =>
            obtain rfl := Option.some.inj reads
            exact .blank
        | _ => cases reads
      · exact informed reader member sweep reads
    refine before.shrink ?_ ?_ ?_
    · rw [same]
    · rw [same]
    · rw [same]
      exact fun _ _ => id
  finish _ _ _ _ informed reader member :=
    informed reader (Multiset.mem_cons_of_mem member)
  discard _ _ _ _ informed reader member :=
    informed reader (Multiset.mem_cons_of_mem member)
  environment world tasks after changed informed reader member sweep reads := by
    have before := informed reader member sweep reads
    cases changed with
    | restart | lose => exact before.shrink rfl rfl fun _ _ => id
    | elapse =>
        refine before.shrink rfl rfl fun sessionId session found => ?_
        exact (lookup_filter_eq_some.mp found).1

/-! ## What an iteration deletes -/

/-- An iteration that has read the truth deletes nothing of the node. -/
theorem spares_of_informed (informed : Informed node world sweep) (allows : sweep.Allows op)
    (effect : World.exec op world answer after) : SparesNode node world after := by
  have keeps := World.exec_keepsRedis effect
  cases op with
  | redis command =>
      obtain ⟨value, redis, effect, -, rfl⟩ := effect
      cases command with
      | del key =>
          obtain ⟨-, rfl⟩ := effect
          cases key with
          | binding bound =>
              refine ⟨fun roomId owns => ?_, fun _ _ _ => id, fun _ _ => rfl⟩
              refine (lookup_erase_if _ _ _).trans (if_neg fun same => ?_)
              subst same
              exact informed.reclaims roomId allows owns
          | session condemned =>
              refine ⟨fun _ _ => rfl, fun _ _ _ => id, fun sessionId owns => ?_⟩
              refine (lookup_erase_if _ _ _).trans (if_neg fun same => ?_)
              subst same
              exact informed.condemns sessionId allows owns
      | delMembers cleared =>
          obtain ⟨-, rfl⟩ := effect
          refine ⟨fun _ _ => rfl, fun roomId nickname owns member => ?_, fun _ _ => rfl⟩
          refine Finset.mem_filter.mpr ⟨member, fun same => ?_⟩
          subst same
          exact allows.elim (informed.reclaims _ · owns) (informed.orphans _ · owns)
      | hset | sadd | srem | expire | assignRoomToSfu => exact allows.elim
      | _ =>
          refine ⟨fun _ _ => ?_, fun _ _ _ member => ?_, fun _ _ => ?_⟩
          · rw [keeps.bindings id]
          · rwa [keeps.members id]
          · rw [keeps.sessions id]
  | _ =>
      refine ⟨fun _ _ => ?_, fun _ _ _ member => ?_, fun _ _ => ?_⟩
      · rw [keeps.bindings id]
      · rwa [keeps.members id]
      · rw [keeps.sessions id]

variable {pool : (deployment restriction).Pool}

/-- **A healthy node is not reclaimed** in a run that heeds what the iterations have read: no step
of an iteration of the janitor deletes a binding, a member set or a session that the node owns. -/
theorem spares_of_heeded (issued : ∀ roomId, Used roomId world 0 → roomId ∈ world.issued)
    (run : Reaches (heeded restriction node) ⟨world, []⟩ pool) {next : op.Reply → Call Unit}
    (running : (⟨known, .call op next⟩ : (deployment restriction).Thread) ∈ pool.threads)
    (iterates : known.sweep.isSome) (steps : Steps op pool.state reply after) :
    SparesNode node pool.state after := by
  have ledger : Ledger world 0 := by
    refine ⟨fun _ member => ?_, fun _ => Nat.zero_le _, fun roomId used => ⟨issued roomId used, ?_⟩⟩
    · exact absurd member (Multiset.notMem_zero _)
    · exact fun _ member => absurd member (Multiset.notMem_zero _)
  have holds : (tracing restriction).Holds ⟨world, []⟩ := .of_quiescent ledger
  have informed := holds.retains governs_tracing keeps_informed
    (fun _ member => absurd member (Multiset.notMem_zero _)) run
  obtain ⟨sweep, own⟩ := Option.isSome_iff_exists.mp iterates
  have allows := ((holds.guarded governs_tracing run).2 _ running).1.2 sweep own
  have told := informed known (Multiset.mem_coe.mpr (List.mem_map_of_mem running)) sweep own
  rcases steps.effect with rfl | ⟨answer, effect⟩
  · exact ⟨fun _ _ => rfl, fun _ _ _ => id, fun _ _ => rfl⟩
  · exact spares_of_informed told allows effect

/-! ## A restart -/

/-- No call fails, and the node answers whenever it is pinged. -/
def Answers (node : NodeId) : (op : Op) → op.Reply → Prop
  | .redis _, reply => ∃ value, reply = .ok value
  | .pingSignaling pinged, reply => pinged = node → reply = true
  | op, reply => ¬ Fails op reply

instance (node : NodeId) : (op : Op) → (reply : op.Reply) → Decidable (Answers node op reply)
  | .redis _, .ok value => .isTrue ⟨value, rfl⟩
  | .redis _, .error _ => .isFalse fun ok => by
      obtain ⟨value, same⟩ := ok
      cases same
  | .pingSignaling pinged, reply => inferInstanceAs (Decidable (pinged = node → reply = true))
  | .createPeer .., .ok _ | .deletePeer .., .ok _ | .handleSdp .., .ok _
  | .addIceCandidate .., .ok _ => .isTrue id
  | .createPeer .., .error _ | .deletePeer .., .error _ | .handleSdp .., .error _
  | .addIceCandidate .., .error _ => .isFalse fun ok => ok trivial
  | .closeRoomsBySfu _, reply => inferInstanceAs (Decidable (¬ reply = false))
  | .unixNow, _ | .newUuid, _ | .peers .., _ | .sessions .., _ | .trySend .., _
  | .sendMessage .., _ | .getContext _, _ | .setContext .., _ | .pingSfu _, _ | .outOfFuel, _ =>
      .isTrue id

/-- A deployment in which no call fails and the node answers every probe. -/
def healthy (node : NodeId) : Restriction := ⟨fun _ => True, Answers node⟩

def healthySampler (node : NodeId) : (deployment (healthy node)).Sampler Hint where
  sample hint op world := (World.sample hint op world).filter fun outcome =>
    Answers node op outcome.1
  sound {hint op before reply after} sampled := by
    obtain ⟨found, answers⟩ := Option.filter_eq_some_iff.mp sampled
    have answers : Answers node op reply := of_decide_eq_true answers
    exact ⟨.succeeds (World.sample_sound found), answers⟩

/-- A task that has just started. -/
def begun (task : Task) : (deployment restriction).Thread := ⟨.initial task, task.program⟩

/-- A supervisor probes the node, seeds its inventory and probes the SFUs, and a client of the node
creates a room. -/
def hosting : List (deployment (healthy "127.0.0.1:8080")).Thread :=
  begun (.signalingProbe Supervisor.sampleSupervisor) :: tasks.map begun

/-- The iteration is about to delete the binding of a room. -/
def unbinding (pool : (deployment restriction).Pool) : Option RoomId :=
  match pool.threads.head? with
  | some ⟨known, .call (.redis (.del (.binding roomId))) _⟩ =>
      if known.sweep.isSome then some roomId else none
  | _ => none

/-- The task that is about to delete the binding is a janitor iteration. -/
theorem exists_unbinding {roomId : RoomId} {pool : (deployment restriction).Pool}
    (unbinds : unbinding pool = some roomId) : ∃ known next,
      (⟨known, .call (.redis (.del (.binding roomId))) next⟩ : (deployment restriction).Thread) ∈
        pool.threads ∧ known.sweep.isSome := by
  unfold unbinding at unbinds
  split at unbinds
  · rename_i known room next first
    split at unbinds
    · rename_i iterates
      obtain rfl := Option.some.inj unbinds
      exact ⟨known, next, List.mem_of_mem_head? first, iterates⟩
    · cases unbinds
  · cases unbinds

/-- **A healthy node is reclaimed** although it has answered every probe and no call has failed:
after 31 seconds without a supervisor, the first iteration of the janitor comes before the first
probe and deletes the binding of its room. -/
theorem reclaimed_after_downtime : ∃ pool : (deployment (healthy "127.0.0.1:8080")).Pool,
    Reaches unguarded ⟨World.fresh, []⟩ pool ∧
    ∃ known next, (⟨known, .call (.redis (.del (.binding "room-1"))) next⟩ :
        (deployment (healthy "127.0.0.1:8080")).Thread) ∈ pool.threads ∧ known.sweep.isSome ∧
      ∃ reply after, World.exec (.redis (.del (.binding "room-1"))) pool.state reply after ∧
        ¬ SparesNode "127.0.0.1:8080" pool.state after := by
  have replayed : ((healthySampler "127.0.0.1:8080").replay unguarded (turns 0 4 ++ schedule)
      ⟨World.fresh, hosting⟩).any (fun pool => pool.state.now ≤ 31000 ∧
        ((healthySampler "127.0.0.1:8080").replay unguarded
          (turns 0 3 ++ [(0, { names := ["room-1"] })] ++ turns 0 6)
          ⟨pool.state.elapse 31000,
            begun (.janitor Supervisor.sampleSupervisor) :: pool.threads⟩).any (fun pool =>
              unbinding pool = some "room-1" ∧ (pool.state.redis.bindings.lookup "room-1").bind
                (·.get "signaling_owner_id") = some "127.0.0.1:8080") = true) = true := by
    decide +kernel
  obtain ⟨earlier, hosts, passed⟩ := Sampler.exists_of_replay replayed
  obtain ⟨late, replayed⟩ := of_decide_eq_true passed
  obtain ⟨pool, iterates, passed⟩ := Sampler.exists_of_replay replayed
  obtain ⟨unbinds, owns⟩ := of_decide_eq_true passed
  have started : Reaches unguarded ⟨World.fresh, []⟩ ⟨World.fresh, hosting⟩ := by
    refine reaches_start fun thread member others => ?_
    rcases List.mem_cons.mp member with rfl | member
    · exact ⟨.signalingProbe Supervisor.sampleSupervisor, trivial, rfl, rfl, rfl⟩
    · obtain ⟨task, chosen, rfl⟩ := List.mem_map.mp member
      exact ⟨task, trivial, rfl, rfl, (tasks_may_start chosen).2.symm⟩
  have restarted : Reaches unguarded earlier ⟨earlier.state.elapse 31000,
      begun (.janitor Supervisor.sampleSupervisor) :: earlier.threads⟩ :=
    .tail (.single (.environment (.elapse late))) (.start ⟨.janitor _, trivial, rfl, rfl, rfl⟩)
  obtain ⟨known, next, running, sweeps⟩ := exists_unbinding unbinds
  refine ⟨pool, ((started.trans hosts).trans restarted).trans iterates, known, next, running,
    sweeps, _, _, ⟨_, _, ⟨rfl, rfl⟩, rfl, rfl⟩, fun spares => ?_⟩
  have kept := spares.bindings "room-1" owns
  rw [show ({ pool.state with redis := _ } : World).redis.bindings.lookup "room-1" = _ from
    lookup_erase_if _ _ _, if_pos rfl] at kept
  rw [← kept] at owns
  cases owns

/-! ## A dead node and a healthy one -/

/-- Each of two nodes has a room with one member; one of them has been seen, the other is gone. -/
def abandoned : World where
  now := 100000
  redis :=
    { ((Redis.empty.assign "room-0" "127.0.0.1" "8081" "127.0.0.1:8081" sampleSfu).assign "room-1"
        "127.0.0.1" "8080" "127.0.0.1:8080" sampleSfu).zadd .signalingNodes "127.0.0.1:8080" 90 with
      members := {("room-0", "bob"), ("room-1", "alice")} }
  issued := {"room-0", "room-1"}
  nodes _ := { peers := ∅, sessions := ⟨∅, ∅⟩ }
  sfuPeers := ∅
  connections _ := { capacity := 256 }
  spawned := 0

/-- Every room id in use in the abandoned deployment has been drawn. -/
theorem abandoned_issued {roomId : RoomId} (used : Used roomId abandoned 0) :
    roomId ∈ abandoned.issued := by
  cases used with
  | bound present =>
      rcases Finmap.mem_insert.mp present with rfl | present
      · decide
      · rcases Finmap.mem_insert.mp present with rfl | present
        · decide
        · exact absurd present Finmap.notMem_empty
  | joined nickname member =>
      rcases Finset.mem_insert.mp member with same | member
      · cases same
        decide
      · cases Finset.mem_singleton.mp member
        decide
  | registered _ _ _ found => cases found
  | mentioned _ member => exact absurd member (Multiset.notMem_zero _)

/-- A sweep of a dead node's binding leaves the healthy node's room. -/
theorem spares_of_heeded_abandoned : ∃ pool : (deployment (healthy "127.0.0.1:8080")).Pool,
    OwnsRoom "127.0.0.1:8080" pool.state "room-1" ∧
    ("room-1", "alice") ∈ pool.state.redis.members ∧
    ∃ reply after, World.exec (.redis (.del (.binding "room-0"))) pool.state reply after ∧
      SparesNode "127.0.0.1:8080" pool.state after := by
  have replayed : ((healthySampler "127.0.0.1:8080").replay
      (heeded (healthy "127.0.0.1:8080") "127.0.0.1:8080")
      (turns 0 1 ++ [(0, { names := ["127.0.0.1:8080"] })] ++ turns 0 1 ++
        [(0, { names := ["room-0", "room-1"] })] ++ turns 0 3)
      ⟨abandoned, [begun (.janitor Supervisor.sampleSupervisor)]⟩).any (fun pool =>
        unbinding pool = some "room-0" ∧ (pool.state.redis.bindings.lookup "room-1").bind
          (·.get "signaling_owner_id") = some "127.0.0.1:8080" ∧
        ("room-1", "alice") ∈ pool.state.redis.members) = true := by
    decide +kernel
  obtain ⟨pool, run, passed⟩ := Sampler.exists_of_replay replayed
  obtain ⟨unbinds, owns, member⟩ := of_decide_eq_true passed
  obtain ⟨known, next, running, sweeps⟩ := exists_unbinding unbinds
  have launched : Reaches (heeded (healthy "127.0.0.1:8080") "127.0.0.1:8080") ⟨abandoned, []⟩
      ⟨abandoned, [begun (.janitor Supervisor.sampleSupervisor)]⟩ :=
    .single (.start ⟨.janitor _, trivial, rfl, rfl, rfl⟩)
  have effect : World.exec (.redis (.del (.binding "room-0"))) pool.state _ _ :=
    ⟨_, _, ⟨rfl, rfl⟩, rfl, rfl⟩
  exact ⟨pool, owns, member, _, _, effect, spares_of_heeded (fun _ => abandoned_issued)
    (launched.trans run) running sweeps (.succeeds effect)⟩

end Callifornia.Deployment
