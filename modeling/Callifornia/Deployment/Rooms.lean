import Callifornia.Deployment.Footprint
import Callifornia.Frame

/-! # The rooms of the deployment

A create draws the id of its room and binds the room under it, if at all. Whatever else there is
of a room comes later: its members, its peers, and what the tasks learn of it. So a room of which
there is anything is never bound again.
-/

namespace Callifornia.Deployment

open Concurrency FiniteMap Store Signaling

variable {world after : World} {op : Op} {reply answer : op.Reply} {roomId : RoomId}
  {known : Knowledge} {others tasks : Multiset Knowledge}

/-! ## What is kept -/

/-- The id of the room is used up: it will not be bound again. -/
structure Spent (roomId : RoomId) (world : World) (tasks : Multiset Knowledge) : Prop where
  issued : roomId ∈ world.issued
  undrawn : ∀ known ∈ tasks, known.drawn ≠ some roomId

/-- The iteration of the janitor has seen the room. -/
def Sweep.Mentions (sweep : Sweep) (roomId : RoomId) : Prop :=
  roomId ∈ sweep.listed ∨ ∃ owner, sweep.binding = some (roomId, owner)

/-- The task has seen the room. -/
def Knowledge.Mentions (known : Knowledge) (roomId : RoomId) : Prop :=
  (∃ placement, known.Learned roomId placement) ∨ ∃ sweep ∈ known.sweep, sweep.Mentions roomId

/-- There is something of the room. -/
inductive Used (roomId : RoomId) (world : World) (tasks : Multiset Knowledge) : Prop
  | bound (present : roomId ∈ world.redis.bindings)
  | joined (nickname : Nickname) (member : (roomId, nickname) ∈ world.redis.members)
  | registered (node : NodeId) (nickname : Nickname) (entry : PeerEntry)
      (found : (world.nodes node).peers.lookup (roomId, nickname) = some entry)
  | mentioned (known : Knowledge) (member : known ∈ tasks) (mentions : known.Mentions roomId)

/-- An id is drawn by one task, and a room of which there is anything has used up its id. -/
structure Ledger (world : World) (tasks : Multiset Knowledge) : Prop where
  issued : ∀ known ∈ tasks, ∀ roomId, known.drawn = some roomId → roomId ∈ world.issued
  distinct : ∀ roomId, tasks.countP (fun known => known.drawn = some roomId) ≤ 1
  spent : ∀ roomId, Used roomId world tasks → Spent roomId world tasks

/-- The step binds only the room that the task has drawn, and adds members and peers only to rooms
of which it knows where they are placed. -/
def Knowledge.Traces (known : Knowledge) : Op → Prop
  | .redis (.assignRoomToSfu roomId ..) => known.drawn = some roomId
  | .redis (.hset (.binding _) _ _) => False
  | .redis (.sadd roomId nickname) => known.Directs (.redis (.sadd roomId nickname))
  | .peers node (.register roomId nickname entry) =>
      known.Directs (.peers node (.register roomId nickname entry))
  | _ => True

/-! ## Single steps -/

/-- A step takes effect, whatever it replies, or it changes nothing. -/
theorem Steps.effect (steps : Steps op world reply after) :
    after = world ∨ ∃ answer, World.exec op world answer after := by
  cases steps with
  | succeeds effect => exact .inr ⟨reply, effect⟩
  | refused => exact .inl rfl
  | unanswered _ effect => exact .inr ⟨_, effect⟩

/-- A reply that does not tell of a failure is true. -/
theorem Steps.truthful (steps : Steps op world reply after) :
    Fails op reply ∨ World.exec op world reply after := by
  cases steps with
  | succeeds effect => exact .inr effect
  | refused fails => exact .inl fails
  | unanswered fails => exact .inl fails

/-- The step may bind this room. -/
def Binds (roomId : RoomId) : Op → Prop
  | .redis (.assignRoomToSfu bound ..) | .redis (.hset (.binding bound) _ _) => bound = roomId
  | _ => False

/-- A step that does not bind the room leaves its binding alone, or removes it. -/
theorem binding_kept (effect : World.exec op world answer after) (other : ¬ Binds roomId op) :
    after.redis.bindings.lookup roomId = world.redis.bindings.lookup roomId ∨
      after.redis.bindings.lookup roomId = none := by
  by_cases writes : op.IsRedis Command.WritesBindings
  · cases op with
    | redis command =>
        obtain ⟨value, redis, effect, -, rfl⟩ := effect
        cases command with
        | hset key =>
            cases key with
            | session => exact writes.elim
            | binding bound =>
                obtain rfl : redis = _ := effect
                refine .inl ((lookup_insert_if _ _ _ _).trans (if_neg fun same => other ?_))
                exact same.symm
        | del key =>
            cases key with
            | session => exact writes.elim
            | binding bound =>
                obtain ⟨-, rfl⟩ := effect
                change (world.redis.bindings.erase bound).lookup roomId = _ ∨ _
                rw [lookup_erase_if]
                split
                · exact .inr ((lookup_erase_if _ _ _).trans (if_pos ‹_›))
                · exact .inl rfl
        | assignRoomToSfu bound =>
            rcases Redis.exec_assign effect with rfl | ⟨best, -, -, rfl⟩
            · exact .inl rfl
            · refine .inl ((lookup_insert_if _ _ _ _).trans (if_neg fun same => other ?_))
              exact same.symm
        | _ => exact writes.elim
    | _ => exact writes.elim
  · rw [(World.exec_keepsRedis effect).bindings writes]
    exact .inl rfl

/-- A member is added by a step of its own. -/
theorem exec_members (effect : World.exec op world answer after) {nickname : Nickname}
    (member : (roomId, nickname) ∈ after.redis.members) :
    (roomId, nickname) ∈ world.redis.members ∨ op = .redis (.sadd roomId nickname) := by
  by_cases writes : op.IsRedis Command.WritesMembers
  · cases op with
    | redis command =>
        obtain ⟨value, redis, effect, -, rfl⟩ := effect
        cases command with
        | sadd room name =>
            obtain rfl : redis = _ := effect
            rcases Finset.mem_insert.mp member with same | member
            · cases same
              exact .inr rfl
            · exact .inl member
        | srem =>
            obtain ⟨-, rfl⟩ := effect
            exact .inl (Finset.mem_of_mem_erase member)
        | delMembers =>
            obtain ⟨-, rfl⟩ := effect
            exact .inl (Finset.mem_filter.mp member).1
        | _ => exact writes.elim
    | _ => exact writes.elim
  · rw [(World.exec_keepsRedis effect).members writes] at member
    exact .inl member

/-- An entry of a registry is written by the node. -/
theorem exec_entries (effect : World.exec op world answer after) {node : NodeId}
    {nickname : Nickname} {entry : PeerEntry}
    (found : (after.nodes node).peers.lookup (roomId, nickname) = some entry) :
    (world.nodes node).peers.lookup (roomId, nickname) = some entry ∨
      op = .peers node (.register roomId nickname entry) := by
  by_cases writes : World.WritesNodes op
  · cases op with
    | peers other command =>
        obtain ⟨peers, written, rfl⟩ := effect
        rw [World.nodes_setNode] at found
        split at found
        · rename_i same
          subst same
          cases command with
          | register room name =>
              obtain rfl : peers = _ := written
              rw [lookup_insert_if] at found
              split at found
              · rename_i same
                cases same
                obtain rfl := Option.some.inj found
                exact .inr rfl
              · exact .inl found
          | unregister room name =>
              obtain rfl : peers = _ := written
              rw [lookup_erase_if] at found
              split at found
              · cases found
              · exact .inl found
          | clear =>
              obtain rfl : peers = ∅ := written
              cases found
          | _ =>
              obtain ⟨-, rfl⟩ := written
              exact .inl found
        · exact .inl found
    | sessions other command =>
        obtain ⟨sessions, -, rfl⟩ := effect
        rw [World.peers_setSessions] at found
        exact .inl found
    | _ => exact writes.elim
  · rw [World.exec_nodes effect writes] at found
    exact .inl found

/-- Ids are only added. -/
theorem exec_issues (effect : World.exec op world answer after) (issued : roomId ∈ world.issued) :
    roomId ∈ after.issued := by
  by_cases drawing : op = .newUuid
  · subst drawing
    obtain ⟨-, rfl⟩ := effect
    exact Finset.mem_insert_of_mem issued
  · rw [World.exec_issued effect drawing]
    exact issued

/-- A room id once drawn stays drawn. -/
theorem Steps.issues (steps : Steps op world reply after) (issued : roomId ∈ world.issued) :
    roomId ∈ after.issued := by
  rcases steps.effect with rfl | ⟨answer, effect⟩
  · exact issued
  · exact exec_issues effect issued

/-- An id is held already, or it is drawn and new. -/
theorem held_or_fresh (steps : Steps op world reply after)
    (drawn : (advance known op reply).drawn = some roomId) :
    known.drawn = some roomId ∨ roomId ∉ world.issued ∧ roomId ∈ after.issued := by
  change redraw known.drawn op reply = some roomId at drawn
  cases op with
  | newUuid =>
      obtain rfl := Option.some.inj drawn
      rcases steps.truthful with fails | effect
      · exact fails.elim
      · obtain ⟨⟨fresh, -⟩, rfl⟩ := effect
        exact .inr ⟨fresh, Finset.mem_insert_self _ _⟩
  | redis command =>
      cases command with
      | assignRoomToSfu => cases drawn
      | _ => exact .inl drawn
  | _ => exact .inl drawn

/-! ## What the tasks learn -/

/-- A call that failed tells nothing. -/
theorem told_of_fails (fails : Fails op reply) : told op reply = [] := by
  cases op with
  | redis command =>
      cases reply with
      | ok value => exact fails.elim
      | error failure =>
          cases command with
          | hgetall key => cases key <;> rfl
          | _ => rfl
  | peers => exact fails.elim
  | _ => rfl

/-- A task is told the placement of a room by its binding, by a registry, or when it binds the
room. -/
theorem told_cases (effect : World.exec op world reply after) {placement : Placement}
    (tells : (roomId, placement) ∈ told op reply) : Binds roomId op ∨
      (∃ hash route, world.redis.bindings.lookup roomId = some hash ∧
        RoomRoute.ofFields hash.fields = .ok route ∧ placement = placementOf route) ∨
      ∃ node nickname entry, (world.nodes node).peers.lookup (roomId, nickname) = some entry ∧
        placement = ⟨node, entry.sfuAddr⟩ := by
  cases op with
  | redis command =>
      obtain ⟨value, redis, effect, rfl, -⟩ := effect
      cases command with
      | assignRoomToSfu bound =>
          obtain ⟨assignment, -, same⟩ := Option.map_eq_some_iff.mp (Option.mem_toList.mp tells)
          exact .inl (Prod.mk.inj same).1
      | hgetall key =>
          cases key with
          | session => cases tells
          | binding bound =>
              obtain ⟨route, read, same⟩ := Option.map_eq_some_iff.mp (Option.mem_toList.mp tells)
              obtain ⟨rfl, rfl⟩ := Prod.mk.inj same
              obtain ⟨rfl, -⟩ := effect
              refine .inr (.inl ?_)
              change (RoomRoute.ofFields (((world.redis.bindings.lookup bound).map
                Hash.fields).getD ∅)).toOption = some route at read
              cases found : world.redis.bindings.lookup bound with
              | none =>
                  rw [found] at read
                  cases read
              | some hash =>
                  rw [found] at read
                  refine ⟨hash, route, rfl, ?_, rfl⟩
                  change (RoomRoute.ofFields hash.fields).toOption = some route at read
                  cases outcome : RoomRoute.ofFields hash.fields with
                  | error error =>
                      rw [outcome] at read
                      cases read
                  | ok other =>
                      rw [outcome] at read
                      exact congrArg _ (Option.some.inj read)
      | _ => cases tells
  | peers node command =>
      cases command with
      | snapshotRoomsWithSfu =>
          obtain ⟨room, listed, tells⟩ := List.mem_flatMap.mp tells
          obtain ⟨participant, member, same⟩ := List.mem_map.mp tells
          obtain ⟨rfl, rfl⟩ := Prod.mk.inj same
          obtain ⟨_, ⟨snapshot, -⟩, -⟩ := effect
          obtain ⟨entry, found, named⟩ := ((snapshot.2.2 room listed).2 _ _).mp member
          exact .inr (.inr ⟨node, participant.1, entry, found, by rw [named]⟩)
      | _ => cases tells
  | _ => cases tells

/-- An iteration of the janitor sees rooms that are bound or have members. -/
theorem mentions_advanced {sweep : Sweep} (steps : Steps op world reply after)
    (mentions : (sweep.advance op reply).Mentions roomId) :
    sweep.Mentions roomId ∨ Used roomId world others := by
  rcases steps.truthful with fails | effect
  · refine .inl ?_
    cases op with
    | redis command =>
        cases reply with
        | ok value => exact fails.elim
        | error failure =>
            cases command with
            | zrangeByScore set => cases set <;> exact mentions
            | scan pattern => cases pattern <;> exact mentions
            | hgetall key | hget key | del key => cases key <;> exact mentions
            | _ => exact mentions
    | _ => exact mentions
  · cases op with
    | redis command =>
        obtain ⟨value, redis, effect, rfl, -⟩ := effect
        cases command with
        | zrangeByScore set => cases set <;> exact .inl mentions
        | hget key | del key => cases key <;> exact .inl mentions
        | scan pattern =>
            cases pattern with
            | bindings | sessions => exact .inl mentions
            | members =>
                rcases mentions with listed | read
                · rcases Finset.mem_union.mp listed with listed | listed
                  · exact .inl (.inl listed)
                  · obtain ⟨⟨present, -⟩, -⟩ := effect
                    obtain ⟨member, inside, rfl⟩ :=
                      Finset.mem_image.mp (present roomId (List.mem_toFinset.mp listed))
                    exact .inr (.joined member.2 inside)
                · exact .inl (.inr read)
        | hgetall key =>
            cases key with
            | session => exact .inl mentions
            | binding bound =>
                rcases mentions with listed | ⟨owner, read⟩
                · exact .inl (.inl listed)
                · obtain ⟨_, found, same⟩ := Option.map_eq_some_iff.mp read
                  obtain ⟨rfl, -⟩ := Prod.mk.inj same
                  obtain ⟨rfl, -⟩ := effect
                  refine .inr (.bound (Finmap.mem_iff.mpr ?_))
                  cases present : world.redis.bindings.lookup bound with
                  | none =>
                      change (((world.redis.bindings.lookup bound).map Hash.fields).getD ∅).lookup
                        _ = _ at found
                      rw [present] at found
                      cases found
                  | some hash => exact ⟨hash, rfl⟩
        | _ => exact .inl mentions
    | _ => exact .inl mentions

/-! ## Used rooms -/

namespace Spent

/-- A task that ends leaves a spent room spent. -/
theorem leave (spent : Spent roomId world (known ::ₘ others)) : Spent roomId world others :=
  ⟨spent.issued, fun other member => spent.undrawn other (Multiset.mem_cons_of_mem member)⟩

/-- A step keeps a spent room spent. -/
theorem step (spent : Spent roomId world (known ::ₘ others))
    (steps : Steps op world reply after) :
    Spent roomId after (advance known op reply ::ₘ others) := by
  refine ⟨steps.issues spent.issued, fun other member drawn => ?_⟩
  rcases Multiset.mem_cons.mp member with rfl | member
  · rcases held_or_fresh steps drawn with held | fresh
    · exact spent.undrawn known (Multiset.mem_cons_self _ _) held
    · exact fresh.1 spent.issued
  · exact spent.undrawn other (Multiset.mem_cons_of_mem member) drawn

/-- A task that starts has drawn nothing. -/
theorem enter (spent : Spent roomId world others) (issued : after.issued = world.issued)
    (blank : known.drawn = none) : Spent roomId after (known ::ₘ others) := by
  refine ⟨by rw [issued]; exact spent.issued, fun other member drawn => ?_⟩
  rcases Multiset.mem_cons.mp member with rfl | member
  · cases blank.symm.trans drawn
  · exact spent.undrawn other member drawn

/-- What the tasks are not part of keeps a spent room spent. -/
theorem changed (spent : Spent roomId world others) (changed : Changes world after) :
    Spent roomId after others := by
  cases changed <;> exact ⟨spent.issued, spent.undrawn⟩

end Spent

/-- A task begins with no room id drawn. -/
theorem drawn_initial (task : Task) : (Knowledge.initial task).drawn = none := by
  cases task <;> rfl

/-- A task that starts has seen nothing. -/
theorem not_mentions_initial (task : Task) : ¬ (Knowledge.initial task).Mentions roomId := by
  intro mentions
  rcases mentions with ⟨placement, learned⟩ | ⟨sweep, own, seen⟩
  · cases task <;> exact List.not_mem_nil learned
  · cases task with
    | janitor =>
        obtain rfl := Option.some.inj own
        rcases seen with listed | ⟨owner, read⟩
        · exact Finset.notMem_empty _ listed
        · cases read
    | _ => cases own

/-- A task that starts leaves the store, the ids and the registries alone. -/
theorem opened_kept (world : World) (task : Task) :
    (opened world task).redis = world.redis ∧ (opened world task).issued = world.issued ∧
      (opened world task).nodes = world.nodes := by
  cases task <;> exact ⟨rfl, rfl, rfl⟩

/-- A task that ends leaves a room id used. -/
theorem Used.leave (used : Used roomId world others) : Used roomId world (known ::ₘ others) := by
  cases used with
  | bound present => exact .bound present
  | joined nickname member => exact .joined nickname member
  | registered node nickname entry found => exact .registered node nickname entry found
  | mentioned other member mentions =>
      exact .mentioned other (Multiset.mem_cons_of_mem member) mentions

/-- What a task directs is about a room that it has seen. -/
theorem Used.of_learned {placement : Placement} (learned : known.Learned roomId placement) :
    Used roomId world (known ::ₘ others) :=
  .mentioned known (Multiset.mem_cons_self _ _) (.inl ⟨placement, learned⟩)

/-- A task sees only rooms of which there was something, or the one that it binds. -/
theorem used_of_mentions (steps : Steps op world reply after)
    (mentions : (advance known op reply).Mentions roomId) :
    Binds roomId op ∨ Used roomId world (known ::ₘ others) := by
  rcases mentions with ⟨placement, learned⟩ | ⟨sweep, own, seen⟩
  · rcases learned_advance.mp learned with tells | learned
    · rcases steps.truthful with fails | effect
      · rw [told_of_fails fails] at tells
        cases tells
      · rcases told_cases effect tells with
          binds | ⟨hash, _, found, -⟩ | ⟨node, name, entry, found, -⟩
        · exact .inl binds
        · exact .inr (.bound (Finmap.mem_iff.mpr ⟨hash, found⟩))
        · exact .inr (.registered node name entry found)
    · exact .inr (.of_learned learned)
  · obtain ⟨earlier, held, rfl⟩ := Option.map_eq_some_iff.mp own
    rcases mentions_advanced steps seen with seen | used
    · exact .inr (.mentioned known (Multiset.mem_cons_self _ _) (.inr ⟨earlier, held, seen⟩))
    · exact .inr used

/-- A room is used only if it was used before, or because it is bound now. -/
theorem used_of_step (traces : known.Traces op) (steps : Steps op world reply after)
    (used : Used roomId after (advance known op reply ::ₘ others)) :
    Binds roomId op ∨ Used roomId world (known ::ₘ others) := by
  have stored : Binds roomId op ∨ Used roomId world (known ::ₘ others) ∨
      ¬ (roomId ∈ after.redis.bindings ∨
        (∃ nickname, (roomId, nickname) ∈ after.redis.members) ∨ ∃ node nickname entry,
          (after.nodes node).peers.lookup (roomId, nickname) = some entry) := by
    by_cases binds : Binds roomId op
    · exact .inl binds
    · refine .inr (or_iff_not_imp_right.mpr fun present => ?_)
      rcases steps.effect with rfl | ⟨answer, effect⟩
      · rcases not_not.mp present with bound | ⟨name, member⟩ | ⟨node, name, entry, found⟩
        · exact .bound bound
        · exact .joined name member
        · exact .registered node name entry found
      · rcases not_not.mp present with bound | ⟨name, member⟩ | ⟨node, name, entry, found⟩
        · obtain ⟨hash, found⟩ := Finmap.mem_iff.mp bound
          rcases binding_kept effect binds with same | gone
          · exact .bound (Finmap.mem_iff.mpr ⟨hash, same.symm.trans found⟩)
          · cases gone.symm.trans found
        · rcases exec_members effect member with member | rfl
          · exact .joined name member
          · obtain ⟨placement, learned⟩ := traces
            exact .of_learned learned
        · rcases exec_entries effect found with found | rfl
          · exact .registered node name entry found
          · exact .of_learned traces
  cases used with
  | bound present =>
      exact stored.imp_right fun before => before.resolve_right (not_not.mpr (.inl present))
  | joined nickname member =>
      exact stored.imp_right fun before =>
        before.resolve_right (not_not.mpr (.inr (.inl ⟨nickname, member⟩)))
  | registered node nickname entry found =>
      exact stored.imp_right fun before =>
        before.resolve_right (not_not.mpr (.inr (.inr ⟨node, nickname, entry, found⟩)))
  | mentioned other member mentions =>
      rcases Multiset.mem_cons.mp member with rfl | member
      · exact used_of_mentions steps mentions
      · exact .inr (.mentioned other (Multiset.mem_cons_of_mem member) mentions)

/-! ## The ledger -/

namespace Ledger

/-- No other task holds the id that this one has drawn. -/
theorem undrawn (ledger : Ledger world (known ::ₘ others)) (drawn : known.drawn = some roomId) :
    ∀ other ∈ others, other.drawn ≠ some roomId := by
  intro other member same
  have once := ledger.distinct roomId
  rw [Multiset.countP_cons, if_pos drawn] at once
  have positive : 0 < others.countP fun known => known.drawn = some roomId :=
    Multiset.countP_pos_of_mem member same
  omega

/-- The room of which nobody has seen anything: the task has drawn its id and not bound it. -/
theorem unused (ledger : Ledger world (known ::ₘ others)) (drawn : known.drawn = some roomId) :
    ¬ Used roomId world (known ::ₘ others) :=
  fun used => (ledger.spent roomId used).undrawn known (Multiset.mem_cons_self _ _) drawn

/-- A task that ends leaves the ledger. -/
theorem leave (ledger : Ledger world (known ::ₘ others)) : Ledger world others where
  issued other member := ledger.issued other (Multiset.mem_cons_of_mem member)
  distinct roomId :=
    (Multiset.countP_le_of_le _ (Multiset.le_cons_self _ _)).trans (ledger.distinct roomId)
  spent roomId used := (ledger.spent roomId used.leave).leave

/-- A task that starts has drawn nothing and seen nothing. -/
theorem enter (ledger : Ledger world others) (task : Task) :
    Ledger (opened world task) (.initial task ::ₘ others) := by
  obtain ⟨redis, issued, nodes⟩ := opened_kept world task
  have blank := drawn_initial task
  constructor
  · intro known member roomId drawn
    rw [issued]
    rcases Multiset.mem_cons.mp member with rfl | member
    · cases blank.symm.trans drawn
    · exact ledger.issued known member roomId drawn
  · intro roomId
    rw [Multiset.countP_cons, if_neg fun drawn => ?_]
    · exact ledger.distinct roomId
    · cases blank.symm.trans drawn
  · intro roomId used
    refine (ledger.spent roomId ?_).enter issued blank
    cases used with
    | bound present =>
        rw [redis] at present
        exact .bound present
    | joined nickname member =>
        rw [redis] at member
        exact .joined nickname member
    | registered node nickname entry found =>
        rw [nodes] at found
        exact .registered node nickname entry found
    | mentioned known member mentions =>
        rcases Multiset.mem_cons.mp member with rfl | member
        · exact absurd mentions (not_mentions_initial task)
        · exact .mentioned known member mentions

/-- Time, restarts and SFUs only take away. -/
theorem changed (ledger : Ledger world tasks) (changed : Changes world after) :
    Ledger after tasks := by
  have issued : after.issued = world.issued := by cases changed <;> rfl
  refine ⟨?_, ledger.distinct, fun roomId used => ?_⟩
  · intro known member roomId drawn
    rw [issued]
    exact ledger.issued known member roomId drawn
  · refine (ledger.spent roomId ?_).changed changed
    cases used with
    | bound present => cases changed <;> exact .bound present
    | joined nickname member => cases changed <;> exact .joined nickname member
    | mentioned known member mentions => exact .mentioned known member mentions
    | registered node nickname entry found =>
        cases changed with
        | elapse | lose => exact .registered node nickname entry found
        | restart other =>
            rw [World.nodes_setNode] at found
            split at found
            · cases found
            · exact .registered node nickname entry found

/-- **Step lemma.** Every step keeps the ledger if it traces its rooms. -/
theorem step (ledger : Ledger world (known ::ₘ others)) (traces : known.Traces op)
    (steps : Steps op world reply after) : Ledger after (advance known op reply ::ₘ others) := by
  have self : known ∈ known ::ₘ others := Multiset.mem_cons_self _ _
  constructor
  · intro other member roomId drawn
    rcases Multiset.mem_cons.mp member with rfl | member
    · rcases held_or_fresh steps drawn with held | fresh
      · exact steps.issues (ledger.issued known self roomId held)
      · exact fresh.2
    · exact steps.issues (ledger.issued other (Multiset.mem_cons_of_mem member) roomId drawn)
  · intro roomId
    by_cases drawn : (advance known op reply).drawn = some roomId
    · have absent : ∀ other ∈ others, other.drawn ≠ some roomId := by
        rcases held_or_fresh steps drawn with held | fresh
        · exact ledger.undrawn held
        · exact fun other member same =>
            fresh.1 (ledger.issued other (Multiset.mem_cons_of_mem member) roomId same)
      rw [Multiset.countP_cons, if_pos drawn, Multiset.countP_eq_zero.mpr absent]
    · rw [Multiset.countP_cons, if_neg drawn]
      exact ledger.leave.distinct roomId
  · intro roomId used
    rcases used_of_step traces steps used with binds | used
    · cases op with
      | redis command =>
          cases command with
          | assignRoomToSfu bound =>
              obtain rfl : bound = roomId := binds
              refine ⟨steps.issues (ledger.issued known self bound traces), ?_⟩
              intro other member drawn
              rcases Multiset.mem_cons.mp member with rfl | member
              · cases drawn
              · exact ledger.undrawn traces other member drawn
          | hset key =>
              cases key with
              | binding => exact traces.elim
              | session => exact binds.elim
          | _ => exact binds.elim
      | _ => exact binds.elim
    · exact (ledger.spent roomId used).step steps

end Ledger

/-- A deployment that nobody has used yet has an empty ledger. -/
theorem ledger_fresh : Ledger World.fresh 0 where
  issued _ member := absurd member (Multiset.notMem_zero _)
  distinct _ := Nat.zero_le _
  spent roomId used := by
    cases used with
    | bound present => exact absurd present Finmap.notMem_empty
    | joined _ member => exact absurd member (Finset.notMem_empty _)
    | registered _ _ _ found => cases found
    | mentioned _ member => exact absurd member (Multiset.notMem_zero _)

end Callifornia.Deployment
