import Callifornia.Replay
import Callifornia.Service
import Callifornia.Signaling.Handlers
import Callifornia.Signaling.TokenFormat

/-! # Whose nickname it is

A nickname is reserved at the connector and used at the signaling nodes, where it names a
member of a room and a registered peer. Each such place is filled on behalf of a session.
-/

namespace Callifornia.Names

open Concurrency Concurrency.Program FiniteMap Store Signaling

/-! ## Places -/

/-- A place in which a nickname stands. -/
inductive Place
  | member (roomId : RoomId) (nickname : Nickname)
  | peer (node : NodeId) (roomId : RoomId) (nickname : Nickname)
  deriving DecidableEq

def Place.nickname : Place → Nickname
  | .member _ nickname | .peer _ _ nickname => nickname

/-- The nickname stands there. -/
def Place.In (roster : Roster) : Place → Prop
  | .member roomId nickname => (roomId, nickname) ∈ roster.members
  | .peer node roomId nickname => (roomId, nickname) ∈ roster.peers node

/-- A peer's place is in the registry of its node. -/
theorem Place.in_peer {roster : Roster} {node : NodeId} {roomId : RoomId} {nickname : Nickname} :
    (Place.peer node roomId nickname).In roster ↔ (roomId, nickname) ∈ roster.peers node := Iff.rfl

/-- The registry in the roster is that of the node. -/
theorem Place.in_registry {world : World} {node : NodeId} {roomId : RoomId} {nickname : Nickname} :
    (Place.peer node roomId nickname).In world.roster ↔
      (roomId, nickname) ∈ (world.nodes node).peers := Iff.rfl

/-- The session on behalf of which each place was filled last. -/
abbrev Behalf := Place → Option SessionId

/-- The place an operation fills. -/
def fills : Op → Option Place
  | .redis (.sadd roomId nickname) => some (.member roomId nickname)
  | .peers node (.register roomId nickname _) => some (.peer node roomId nickname)
  | _ => none

/-- The session on whose behalf an action fills places. -/
def actor : Action → Option SessionId
  | .message _ (.create sessionId) | .message _ (.join sessionId _) => some sessionId
  | _ => none

/-- Note on whose behalf an operation fills a place. -/
def note (who : Option SessionId) (op : Op) (behalf : Behalf) : Behalf :=
  match fills op with
  | none => behalf
  | some place => Function.update behalf place who

/-- An operation on behalf of a session. -/
def Acts (who : Option SessionId) (op : Op) (before : World × Behalf) (reply : op.Reply)
    (after : World × Behalf) : Prop :=
  World.exec op before.1 reply after.1 ∧ after.2 = note who op before.2

/-- **No nickname stands in two places on behalf of two sessions.** -/
def Unique (state : World × Behalf) : Prop :=
  ∀ first second : Place, first.In state.1.roster → second.In state.1.roster →
    first.nickname = second.nickname → state.2 first = state.2 second

/-- A session is given up only while its nickname stands nowhere that it does not leave. -/
def Tidy (setup : Setup) : Action → Roster → Prop
  | .logout sessionId, roster =>
      ∀ place : Place, place.In roster → place.nickname ≠ roster.named sessionId
  | .message connection (.logout sessionId _), roster =>
      ∀ place : Place, place.In roster → place.nickname = roster.named sessionId →
        ∃ roomId, roster.room sessionId = some roomId ∧
          (place = .member roomId place.nickname ∨
            place = .peer (setup.home connection).node roomId place.nickname)
  | _, _ => True

/-- The services at work. Whenever an action starts, `starts` holds. -/
def system (setup : Setup) (starts : Action → Roster → Prop) :
    Turns Op Op.Reply (World × Behalf) Action where
  program := Action.program setup
  starts action state := starts action state.1.roster
  exec action := Acts (actor action)
  idles before after := before.1.roster.Idles after.1.roster ∧ after.2 = before.2

/-! ## Losing places -/

/-- Places may have been lost, and nothing else that concerns a nickname has happened. -/
structure Loses (before after : Roster) : Prop where
  members : after.members ⊆ before.members
  peers : ∀ node place, place ∈ after.peers node → place ∈ before.peers node
  named : ∀ sessionId, after.named sessionId = before.named sessionId
  reserved : after.reserved = before.reserved
  issued : before.issued ⊆ after.issued
  /-- A room is closed only when it has no members. -/
  bound : ∀ roomId, after.Bound roomId → before.Bound roomId
  closes : ∀ roomId, before.Bound roomId → after.Occupied roomId → after.Bound roomId

namespace Loses

variable {first second third before after roster : Roster} {node : NodeId} {roomId : RoomId}
  {nickname : Nickname} {sessionId : SessionId} {connection : ConnectionId}

/-- Nothing has been lost. -/
theorem refl (roster : Roster) : Loses roster roster :=
  ⟨Finset.Subset.refl _, fun _ _ => id, fun _ => rfl, rfl, Finset.Subset.refl _, fun _ => id,
    fun _ bound _ => bound⟩

/-- What is lost in two changes is lost in both together. -/
theorem trans (one : Loses first second) (two : Loses second third) : Loses first third where
  members := two.members.trans one.members
  peers node place inside := one.peers node place (two.peers node place inside)
  named sessionId := (two.named sessionId).trans (one.named sessionId)
  reserved := two.reserved.trans one.reserved
  issued := one.issued.trans two.issued
  bound roomId bound := one.bound roomId (two.bound roomId bound)
  closes roomId bound occupied := by
    obtain ⟨nickname, member⟩ := occupied
    exact two.closes roomId (one.closes roomId bound ⟨nickname, two.members member⟩)
      ⟨nickname, member⟩

/-- A place that is there now was there before. -/
theorem place (loses : Loses before after) {place : Place} (inside : place.In after) :
    place.In before := by
  cases place with
  | member roomId nickname => exact loses.members inside
  | peer node roomId nickname => exact loses.peers node _ inside

/-- Attaching a connection loses nothing. -/
theorem attach (sessionId : Option SessionId) : Loses roster (roster.attach connection sessionId) :=
  ⟨Finset.Subset.refl _, fun _ _ => id, fun _ => rfl, rfl, Finset.Subset.refl _, fun _ => id,
    fun _ bound _ => bound⟩

/-- Drawing an id loses nothing. -/
theorem draw (id : String) : Loses roster (roster.draw id) :=
  { refl roster with issued := Finset.subset_insert _ _ }

/-- A change of a node's table loses nothing. -/
theorem withSessions (change : SessionStore → SessionStore) :
    Loses roster (roster.withSessions node change) where
  members := Finset.Subset.refl _
  peers id place inside := by
    rw [Roster.peers_withSessions] at inside
    exact inside
  named _ := rfl
  reserved := rfl
  issued := Finset.Subset.refl _
  bound _ bound := bound
  closes _ bound _ := bound

/-- A write of another field keeps every nickname. -/
theorem hset {field value : String} (other : field ≠ "nickname") :
    Loses roster (roster.hset sessionId field value) :=
  { refl roster with named := Roster.named_hset other }

/-- The check of a session loses nothing. -/
theorem check (session : SessionState) :
    Loses roster (roster.check node connection sessionId session) :=
  (attach (some sessionId)).trans (withSessions _)

/-- Setting the room of a session loses nothing. -/
theorem setRoom (roomId : Option RoomId) : Loses roster (roster.setRoom node sessionId roomId) :=
  (hset (by decide)).trans (withSessions _)

/-- Detaching somebody loses the places of one participant. -/
theorem detach : Loses roster (roster.detach node roomId nickname) where
  members := by
    rw [Roster.members_detach]
    split
    · exact Finset.erase_subset _ _
    · exact Finset.Subset.refl _
  peers id place inside := by
    rw [Roster.peers_detach] at inside
    split at inside
    · rename_i same
      rw [same]
      exact (Finmap.mem_erase.mp inside).2
    · exact inside
  named sessionId := by
    unfold Roster.named
    rw [Roster.keeps_detach.sessions]
  reserved := Roster.keeps_detach.reserved
  issued := by rw [Roster.keeps_detach.issued]
  bound query bound := by
    unfold Roster.Bound at bound ⊢
    rcases Roster.detach_cases with ⟨-, same, -⟩ | ⟨-, same, -⟩
    · rw [same] at bound
      by_cases equal : query = roomId
      · rw [equal] at bound
        simp only [Roster.close, Finmap.lookup_erase, Option.isSome_none,
          Bool.false_eq_true] at bound
      · simp only [Roster.close, Finmap.lookup_erase_ne equal] at bound
        exact bound
    · rw [same] at bound
      exact bound
  closes query bound occupied := by
    unfold Roster.Bound at bound ⊢
    rcases Roster.detach_cases with ⟨⟨-, empty⟩, same, -⟩ | ⟨-, same, -⟩
    · rw [same]
      have other : query ≠ roomId := by
        rintro rfl
        exact empty occupied
      simp only [Roster.close, Finmap.lookup_erase_ne other]
      exact bound
    · rw [same]
      exact bound

/-- Detaching several loses their places. -/
theorem detachAll (nicknames : List Nickname) :
    Loses roster (roster.detachAll node roomId nicknames) := by
  induction nicknames generalizing roster with
  | nil => exact refl roster
  | cons nickname nicknames ih => exact detach.trans ih

/-- Leaving a room loses the places of those who are detached. -/
theorem leave (victims : List Nickname) :
    Loses roster (roster.leave node sessionId roomId nickname victims) :=
  (detach.trans (detachAll victims)).trans (setRoom none)

/-- Whoever leaves a room that is bound is in it no longer. -/
theorem not_in_leave {victims : List Nickname} {place : Place}
    (bound : (roomId, nickname) ∈ roster.members → roster.Bound roomId)
    (standing : place = .member roomId nickname ∨ place = .peer node roomId nickname)
    (inside : place.In roster) :
    ¬ place.In (roster.leave node sessionId roomId nickname victims) := by
  intro still
  have rest : Loses (roster.detach node roomId nickname)
      (roster.leave node sessionId roomId nickname victims) :=
    (Loses.detachAll victims).trans (.setRoom none)
  have left := rest.place still
  rcases standing with rfl | rfl
  · have member : (roomId, nickname) ∈ (roster.detach node roomId nickname).members := left
    rw [Roster.members_detach, if_pos (bound inside)] at member
    exact Finset.notMem_erase _ _ member
  · rw [Place.in_peer, Roster.peers_detach, if_pos rfl] at left
    exact (Finmap.mem_erase.mp left).1 rfl

/-- A request that moves nobody loses nothing. -/
theorem unmoved (unmoved : Signaling.Unmoved node connection sessionId before after) :
    Loses before after := by
  rcases unmoved with rfl | ⟨session, -, rfl⟩
  · exact refl _
  · exact check session

end Loses

/-- Every room with a member is bound, and every bound room has been drawn. -/
structure Housed (roster : Roster) : Prop where
  bound : ∀ roomId nickname, (roomId, nickname) ∈ roster.members → roster.Bound roomId
  issued : ∀ roomId, roster.Bound roomId → roomId ∈ roster.issued

/-- Places may have been lost, and some may have been filled. -/
structure Moves (filled : Place → Prop) (before after : Roster) : Prop where
  place : ∀ place : Place, place.In after → place.In before ∨ filled place
  named : ∀ sessionId, after.named sessionId = before.named sessionId
  reserved : after.reserved = before.reserved
  issued : before.issued ⊆ after.issued
  housed : Housed before → Housed after

section Moves

variable {filled : Place → Prop} {first second third before opened after roster : Roster}
  {state : State} {roomId : RoomId} {nickname : Nickname} {sessionId : SessionId}
  {session : SessionState} {sfuAddr : Address} {connection : ConnectionId} {regular : Prop}
  {accepting : Accepting}

/-- Where places are only lost none is filled. -/
theorem Loses.moves (loses : Loses before after) : Moves filled before after where
  place _ inside := .inl (loses.place inside)
  named := loses.named
  reserved := loses.reserved
  issued := loses.issued
  housed housed := by
    constructor
    · intro roomId nickname member
      exact loses.closes roomId (housed.bound roomId nickname (loses.members member))
        ⟨nickname, member⟩
    · intro roomId bound
      exact loses.issued (housed.issued roomId (loses.bound roomId bound))

/-- What two changes fill, both together fill. -/
theorem Moves.trans (one : Moves filled first second) (two : Moves filled second third) :
    Moves filled first third where
  place place inside := (two.place place inside).elim (one.place place) .inr
  named sessionId := (two.named sessionId).trans (one.named sessionId)
  reserved := two.reserved.trans one.reserved
  issued := one.issued.trans two.issued
  housed housed := two.housed (one.housed housed)

/-- A session that is let in is called by its nickname. -/
theorem named_of_checked (checked : Checked before connection sessionId session) :
    session.nickname = before.named sessionId :=
  (Roster.session_eq_some.mp checked.found).2.1

/-- A new room has been bound. -/
theorem moves_bind {best : SfuInstance} {ownerHost ownerPort ownerId : String} :
    Moves filled roster ((roster.draw roomId).bind roomId ownerHost ownerPort ownerId best) := by
  refine ⟨fun place inside => ?_, fun _ => rfl, rfl, Finset.subset_insert _ _, fun housed => ?_⟩
  · cases place with
    | member => exact .inl inside
    | peer => exact .inl inside
  · have bound_iff (query : RoomId) : ((roster.draw roomId).bind roomId ownerHost ownerPort ownerId
        best).Bound query ↔ query = roomId ∨ roster.Bound query := by
      unfold Roster.Bound
      simp only [Roster.bind, Roster.draw, lookup_insert_if]
      by_cases same : query = roomId
      · simp only [same, if_true, Option.isSome_some, true_or]
      · simp only [same, if_false, false_or]
    constructor
    · intro query nickname member
      exact (bound_iff query).mpr (.inr (housed.bound query nickname member))
    · intro query bound
      rcases (bound_iff query).mp bound with rfl | bound
      · exact Finset.mem_insert_self _ _
      · exact Finset.mem_insert_of_mem (housed.issued query bound)

/-- Opening a room fills no place. -/
theorem moves_of_opens (opens : Opens state before roomId sfuAddr opened) :
    Moves filled before opened := by
  cases opens with
  | join => exact (Loses.refl before).moves
  | create => exact moves_bind

/-- A room without members is closed. -/
theorem Moves.close (moves : Moves filled before after)
    (empty : Housed before → ¬ after.Occupied roomId) :
    Moves filled before (after.close roomId) := by
  refine ⟨fun place inside => ?_, moves.named, moves.reserved, moves.issued, fun housed => ?_⟩
  · cases place with
    | member query nickname => exact moves.place (.member query nickname) inside
    | peer id query nickname => exact moves.place (.peer id query nickname) inside
  · have bound_iff (query : RoomId) : (after.close roomId).Bound query ↔
        query ≠ roomId ∧ after.Bound query := by
      unfold Roster.Bound
      simp only [Roster.close, lookup_erase_if]
      by_cases same : query = roomId
      · simp only [same, if_true, Option.isSome_none, Bool.false_eq_true, ne_eq, not_true,
          false_and]
      · simp only [same, if_false, ne_eq, not_false_eq_true, true_and]
    constructor
    · intro query nickname member
      refine (bound_iff query).mpr ⟨?_, (moves.housed housed).bound query nickname member⟩
      rintro rfl
      exact empty housed ⟨nickname, member⟩
    · intro query bound
      exact (moves.housed housed).issued query ((bound_iff query).mp bound).2

/-- Whoever enters a room is a member of it. -/
theorem moves_of_entered
    (entered : Entered state connection sessionId roomId session sfuAddr before after) :
    Moves (·.nickname = before.named sessionId) before after := by
  obtain ⟨admitted, opened, opens, enterable, rfl⟩ := entered
  have named := named_of_checked admitted.toChecked
  have enters : Moves (·.nickname = before.named sessionId) opened
      (opened.enter sfuAddr roomId session.nickname) := by
    refine ⟨fun place inside => ?_, fun _ => rfl, rfl, Finset.Subset.refl _, fun housed => ?_⟩
    · cases place with
      | member query nickname =>
          rcases Finset.mem_insert.mp inside with same | member
          · exact .inr ((Prod.mk.inj same).2.trans named)
          · exact .inl member
      | peer => exact .inl inside
    · refine ⟨fun query nickname member => ?_, housed.issued⟩
      rcases Finset.mem_insert.mp member with same | member
      · rw [(Prod.mk.inj same).1]
        exact enterable.bound
      · exact housed.bound query nickname member
  exact (((Loses.check session).moves.trans (moves_of_opens opens)).trans enters).trans
    (Loses.setRoom (some roomId)).moves

/-- Registering a peer fills one place of its nickname. -/
theorem moves_register {node : NodeId} {entry : PeerEntry} :
    Moves (·.nickname = nickname) roster (roster.register node roomId nickname entry) := by
  refine ⟨fun place inside => ?_, fun _ => rfl, rfl, Finset.Subset.refl _, fun housed => ?_⟩
  · cases place with
    | member => exact .inl inside
    | peer id query other =>
        rw [Place.in_peer, Roster.peers_register] at inside
        rw [Place.in_peer]
        split at inside
        · rename_i same
          rcases Finmap.mem_insert.mp inside with key | registered
          · exact .inr (Prod.mk.inj key).2
          · rw [same]
            exact .inl registered
        · exact .inl inside
  · exact ⟨housed.bound, housed.issued⟩

/-- A refused request fills no place. -/
theorem moves_of_refused (refused : Refused state connection sessionId regular before after) :
    Moves filled before after := by
  cases refused with
  | unmoved unmoved => exact (Loses.unmoved unmoved).moves
  | drawn => exact ((Loses.check _).trans (Loses.draw _)).moves
  | stranded => exact (Loses.check _).moves.trans moves_bind
  | closed _ fresh opens =>
      have opened : Moves filled before _ := (Loses.check _).moves.trans (moves_of_opens opens)
      refine opened.close fun housed => ?_
      rintro ⟨nickname, member⟩
      cases opens with
      | join => exact fresh (housed.issued _ (housed.bound _ _ member))
      | create _ _ chosen =>
          have bound := housed.bound _ _ member
          unfold Roster.Bound at bound
          rw [show before.bindings.lookup _ = none from chosen.unbound] at bound
          cases bound

/-- A change that fills few places fills no others. -/
theorem Moves.mono {other : Place → Prop} (moves : Moves filled before after)
    (implies : ∀ place, filled place → other place) : Moves other before after :=
  { moves with place := fun place inside => (moves.place place inside).imp_right (implies place) }

/-- What a request to enter a room does. -/
theorem moves_of_entry {result : Except WsHandlerError Unit}
    (outcome : EntryOutcome state connection sessionId accepting regular before result after) :
    Moves (fun place => place.nickname = before.named sessionId ∧ before.named sessionId ≠ "")
      before after := by
  have enters {roomId : RoomId} {session : SessionState} {sfuAddr : Address} {entered : Roster}
      (entry : Entered state connection sessionId roomId session sfuAddr before entered) :
      Moves (fun place => place.nickname = before.named sessionId ∧
        before.named sessionId ≠ "") before entered := by
    have nonempty : before.named sessionId ≠ "" := by
      rw [← named_of_checked entry.admitted.toChecked]
      exact entry.admitted.named
    exact (moves_of_entered entry).mono fun place same => ⟨same, nonempty⟩
  cases result with
  | error error =>
      rcases outcome with ⟨-, _, _, _, entry⟩ | ⟨-, refused⟩
      · exact enters entry
      · exact moves_of_refused refused
  | ok =>
      obtain ⟨roomId, session, sfuAddr, entered, victims, entry, -, rfl⟩ := outcome
      have named := named_of_checked entry.admitted.toChecked
      have nonempty := entry.admitted.named
      rw [named] at nonempty
      refine ((enters entry).trans (moves_register.mono fun place same => ?_)).trans
        (Loses.detachAll victims).moves
      exact ⟨same.trans named, nonempty⟩

/-- What the cleanup of a connection does. -/
theorem loses_of_cleanup (outcome : CleanupOutcome state connection accepting before after) :
    Loses before after := by
  cases outcome with
  | unattached => exact .refl _
  | outside => exact .withSessions _
  | inside => exact (Loses.leave _).trans (.withSessions _)

end Moves

/-! ## On whose behalf places are filled -/

section Filling

variable {who : Option SessionId} {before : World × Behalf} {α β ε : Type} {state : State}
  {connection : ConnectionId} {sessionId : SessionId} {nickname : Nickname}

/-- A place that an operation does not fill was filled before. -/
theorem exec_in {op : Op} {world after : World} {reply : op.Reply}
    (step : World.exec op world reply after) {place : Place} (inside : place.In after.roster) :
    place.In world.roster ∨ fills op = some place := by
  cases place with
  | member roomId nickname =>
      by_cases writes : op.IsRedis Command.WritesMembers
      · cases op with
        | redis command =>
            obtain ⟨value, redis, effect, -, rfl⟩ := step
            cases command with
            | sadd =>
                obtain rfl : redis = _ := effect
                rcases Finset.mem_insert.mp inside with same | member
                · exact .inr (congrArg some (congrArg₂ Place.member (Prod.mk.inj same).1
                    (Prod.mk.inj same).2).symm)
                · exact .inl member
            | srem =>
                obtain ⟨-, rfl⟩ := effect
                exact .inl (Finset.mem_of_mem_erase inside)
            | delMembers =>
                obtain ⟨-, rfl⟩ := effect
                exact .inl (Finset.mem_filter.mp inside).1
            | _ => exact writes.elim
        | _ => exact writes.elim
      · have same := (World.exec_keepsRedis step).members writes
        have member : (roomId, nickname) ∈ after.redis.members := inside
        rw [same] at member
        exact .inl member
  | peer node roomId nickname =>
      rw [Place.in_registry] at inside ⊢
      cases op with
      | peers id command =>
          obtain ⟨peers, effect, rfl⟩ := step
          rw [World.nodes_setNode] at inside
          by_cases same : node = id
          · subst node
            rw [if_pos rfl] at inside
            cases command with
            | register =>
                obtain rfl : peers = _ := effect
                rcases Finmap.mem_insert.mp inside with same | registered
                · obtain ⟨rfl, rfl⟩ := Prod.mk.inj same
                  exact .inr rfl
                · exact .inl registered
            | unregister =>
                obtain rfl : peers = _ := effect
                exact .inl (Finmap.mem_erase.mp inside).2
            | clear =>
                obtain rfl : peers = ∅ := effect
                exact absurd inside Finmap.notMem_empty
            | sender | targets | snapshotRooms | snapshotRoomsWithSfu =>
                obtain ⟨-, rfl⟩ := effect
                exact .inl inside
          · rw [if_neg same] at inside
            exact .inl inside
      | sessions id command =>
          obtain ⟨sessions, -, rfl⟩ := step
          rw [World.peers_setSessions] at inside
          exact .inl inside
      | _ =>
          rw [World.exec_nodes step id] at inside
          exact .inl inside

/-- A run that acts for somebody is a run. -/
theorem acts_ensures {program : Call α} {post : α → World → Prop}
    (ensures : program.Ensures World.exec before.1 post) :
    program.Ensures (Acts who) before fun result after => post result after.1 :=
  ensures.project Prod.fst fun _ _ _ _ acts => acts.1

/-- A place that is filled was filled before, or has been filled on this behalf. -/
theorem ensures_filled (program : Call α) : program.Ensures (Acts who) before fun _ after =>
    ∀ place : Place, place.In after.1.roster →
      (place.In before.1.roster ∧ after.2 place = before.2 place) ∨ after.2 place = who := by
  refine ensures_of_kept (fun op middle reply after filled step place inside => ?_)
    fun place inside => .inl ⟨inside, rfl⟩
  obtain ⟨step, noted⟩ := step
  rw [noted]
  by_cases fresh : fills op = some place
  · simp only [note, fresh, Function.update_self, or_true]
  · have same : note who op middle.2 place = middle.2 place := by
      unfold note
      cases found : fills op with
      | none => rfl
      | some other =>
          refine Function.update_of_ne ?_ _ _
          rintro rfl
          exact fresh found
    rw [same]
    exact filled place ((exec_in step inside).resolve_right fresh)

/-- Programs that fill no place. -/
theorem ensures_unfilled {program : Call α} (only : program.Only (fills · = none)) :
    program.Ensures (Acts who) before fun _ after => after.2 = before.2 := by
  refine only.ensures (fun op middle reply after unfilled same step => ?_) rfl
  obtain ⟨-, noted⟩ := step
  rw [noted, note, unfilled]
  exact same

/-- The operation fills places of this nickname only. -/
def FillsOnly (nickname : Nickname) (op : Op) : Prop :=
  ∀ place ∈ fills op, place.nickname = nickname

/-- An operation that fills no place fills none of another nickname. -/
theorem fillsOnly_of_none {op : Op} (none : fills op = none) : FillsOnly nickname op := by
  intro place found
  rw [none] at found
  cases found

/-- Adding a member fills a place of its nickname. -/
theorem fillsOnly_sadd (roomId : RoomId) : FillsOnly nickname (.redis (.sadd roomId nickname)) := by
  intro place found
  cases found
  rfl

/-- Registering a peer fills a place of its nickname. -/
theorem fillsOnly_register (node : NodeId) (roomId : RoomId) (entry : PeerEntry) :
    FillsOnly nickname (.peers node (.register roomId nickname entry)) := by
  intro place found
  cases found
  rfl

/-- Places have been filled for this nickname only. -/
def Filled (nickname : Nickname) (before after : Behalf) : Prop :=
  ∀ place : Place, after place = before place ∨ place.nickname = nickname ∧ nickname ≠ ""

/-- A program fills the places that its steps fill. -/
theorem ensures_fillsOnly {program : Call α} (only : program.Only (FillsOnly nickname))
    (nonempty : nickname ≠ "") :
    program.Ensures (Acts who) before fun _ after => Filled nickname before.2 after.2 := by
  refine only.ensures (fun op middle reply after fillsOnly filled step place => ?_)
    fun _ => .inl rfl
  obtain ⟨-, noted⟩ := step
  rw [noted, note]
  cases found : fills op with
  | none => exact filled place
  | some other =>
      by_cases same : place = other
      · rw [same]
        exact .inr ⟨fillsOnly other found, nonempty⟩
      · simp only [Function.update_of_ne same]
        exact filled place

/-- Detaching fills no place. -/
theorem detaches_of_unfilled {allowed : Op → Prop} (allows : ∀ op, fills op = none → allowed op) :
    Detaches state connection allowed where
  reads command reads := allows _ (by
    cases command with
    | sadd => exact reads.elim
    | _ => rfl)
  clock := allows _ rfl
  fuel := allows _ rfl
  recalls := allows _ rfl
  remembers _ _ := allows _ rfl
  answers _ := allows _ rfl
  sends _ _ := allows _ rfl
  peers command registersNobody := allows _ (by
    cases command with
    | register => exact registersNobody.elim
    | _ => rfl)
  sessions _ := allows _ rfl
  creates _ _ _ := allows _ rfl
  deletes _ _ _ _ := allows _ rfl
  removes _ _ := allows _ rfl
  clears _ := allows _ rfl
  unbinds _ := allows _ rfl
  scores _ _ := allows _ rfl
  records _ _ := allows _ rfl

/-- Counting connections fills no place. -/
theorem counts_of_unfilled {allowed : Op → Prop} (allows : ∀ op, fills op = none → allowed op) :
    Counts state connection allowed :=
  ⟨fun _ => allows _ rfl, fun _ => allows _ rfl⟩

/-- Programs that fill no place and whose outcome is known. -/
theorem ensures_both {program : Call α} {post : α → World → Prop}
    (ensures : program.Ensures World.exec before.1 post) (only : program.Only (fills · = none)) :
    program.Ensures (Acts who) before fun result after =>
      post result after.1 ∧ after.2 = before.2 :=
  (acts_ensures ensures).and (ensures_unfilled only)

/-! ## The handlers that fill places -/

/-- A part that fills no place and ends with this roster, and the rest. -/
theorem filled_bind {program : ExceptT ε Call α} {rest : α → ExceptT ε Call β}
    (post : α → World → Prop)
    (ensures : program.run.Ensures World.exec before.1 fun result after =>
      ∀ value, result = .ok value → post value after)
    (only : program.run.Only (fills · = none))
    (next : ∀ value (middle : World × Behalf), post value middle.1 →
      (rest value).run.Ensures (Acts who) middle fun _ after =>
        Filled nickname middle.2 after.2) :
    (program >>= rest).run.Ensures (Acts who) before fun _ after =>
      Filled nickname before.2 after.2 := by
  apply (ensures_both ensures only).except_bind
  · rintro value middle ⟨holds, same⟩
    rw [← same]
    exact next value middle (holds value rfl)
  · rintro _ middle ⟨-, same⟩
    rw [same]
    exact fun _ => .inl rfl

/-- A session that has been admitted fills places in its own name. -/
theorem filled_of_admission {program : WsCall SessionState} {rest : SessionState → WsCall Unit}
    (admits : program.run.Ensures World.exec before.1 fun result after =>
      match result with
      | .error error => error ≠ .writeFailed ∧
          Signaling.Unmoved state.node connection sessionId before.1.roster after.roster
      | .ok session => Admitted before.1.roster connection sessionId session ∧
          after.roster = before.1.roster.check state.node connection sessionId session)
    (only : program.run.Only (fills · = none))
    (next : ∀ session, (rest session).run.Only (FillsOnly session.nickname)) :
    (program >>= rest).run.Ensures (Acts who) before fun _ after =>
      Filled (before.1.roster.named sessionId) before.2 after.2 := by
  refine filled_bind (fun session _ => session.nickname = before.1.roster.named sessionId ∧
    session.nickname ≠ "") (admits.mono fun result after holds session found => ?_) only
    fun session middle holds => ?_
  · rw [found] at holds
    exact ⟨named_of_checked holds.1.toChecked, holds.1.named⟩
  · rw [← holds.1]
    exact ensures_fillsOnly (next session) holds.2

/-- A join fills places for the nickname of the session. -/
theorem filled_handleJoinLocked (roomId : RoomId) :
    (handleJoinLocked state connection sessionId roomId).run.Ensures (Acts who) before
      fun _ after => Filled (before.1.roster.named sessionId) before.2 after.2 := by
  have sound (op : Op) (before : World) (reply : op.Reply) (after : World)
      (step : World.exec op before reply after) : World.exec op before reply after := step
  have unfilled : Detaches state connection (fills · = none) := detaches_of_unfilled fun _ => id
  refine filled_of_admission (admission_ensures sound state connection sessionId _)
    (unfilled.admitJoin sessionId roomId) fun session => ?_
  have detaches : Detaches state connection (FillsOnly session.nickname) :=
    detaches_of_unfilled fun _ => fillsOnly_of_none
  refine (detaches.joinTarget roomId).except_bind fun sfuAddr => ?_
  refine (detaches.enterRoom (fillsOnly_sadd _)).except_bind fun participants => ?_
  refine (detaches.recordRoom (fillsOnly_of_none rfl)).except_bind fun _ => ?_
  refine (detaches.sendMessage _).except_bind fun _ => ?_
  refine (Only.lift (issue_only (fillsOnly_register _ _ _))).except_bind fun _ => ?_
  exact Only.lift (detaches.announce _ _ _)

/-- A create fills places for the nickname of the session. -/
theorem filled_handleCreateLocked :
    (handleCreateLocked state connection sessionId).run.Ensures (Acts who) before
      fun _ after => Filled (before.1.roster.named sessionId) before.2 after.2 := by
  have sound (op : Op) (before : World) (reply : op.Reply) (after : World)
      (step : World.exec op before reply after) : World.exec op before reply after := step
  have unfilled : Detaches state connection (fills · = none) := detaches_of_unfilled fun _ => id
  rw [handleCreateLocked_eq]
  refine filled_of_admission (admission_ensures sound state connection sessionId _)
    (unfilled.admitCreate sessionId) fun session => ?_
  have detaches : Detaches state connection (FillsOnly session.nickname) :=
    detaches_of_unfilled fun _ => fillsOnly_of_none
  refine (Only.lift (issue_only (fillsOnly_of_none rfl))).except_bind fun roomId => ?_
  refine (Only.adapt (detaches.assignRoom fun _ => fillsOnly_of_none rfl)).except_bind
    fun assignment => ?_
  refine (detaches.openRoom (fillsOnly_sadd _)).except_bind fun _ => ?_
  refine (detaches.recordRoom (fillsOnly_of_none rfl)).except_bind fun _ => ?_
  refine (detaches.sendMessage _).except_bind fun _ => ?_
  exact Only.lift (issue_only (fillsOnly_register _ _ _))

/-- The lock is taken and given back around a handler. -/
theorem filled_withSessionLock {handler : WsCall Unit}
    (handles : ∀ middle : World × Behalf, handler.run.Ensures (Acts who) middle fun _ after =>
      Filled (middle.1.roster.named sessionId) middle.2 after.2) :
    (withSessionLock state sessionId handler).run.Ensures (Acts who) before fun _ after =>
      Filled (before.1.roster.named sessionId) before.2 after.2 := by
  have sound (op : Op) (before : World) (reply : op.Reply) (after : World)
      (step : World.exec op before reply after) : World.exec op before reply after := step
  have unfilled : Detaches state 0 (fills · = none) := detaches_of_unfilled fun _ => id
  refine filled_bind (fun _ middle => middle.roster = before.1.roster)
    ((requireRedis_leaves sound).mono fun _ _ left _ _ => left.2) unfilled.requireRedis
    fun _ first same => ?_
  rw [← same]
  have drawn : (issue .newUuid).Ensures World.exec first.1 fun id after =>
      after.roster = first.1.roster.draw id := (newUuid_ensures sound).mono fun _ _ left => left.2
  refine filled_bind (fun id middle => middle.roster = first.1.roster.draw id)
    (ensures_lift.mpr (drawn.mono fun id after left value found => ?_))
    (Only.lift (issue_only rfl)) fun lockOwner second same => ?_
  · cases found
    exact left
  · have named : second.1.roster.named sessionId = first.1.roster.named sessionId := by
      rw [same]
      rfl
    rw [← named]
    have silent : (redis (acquireSessionLock sessionId lockOwner
        state.config.sessionLockTtlMs)).run.Ensures World.exec second.1 fun _ after =>
          after.roster = second.1.roster := by
      apply ensures_silent sound
      exact Only.adapt (redisCommand_only nofun)
    refine filled_bind (fun _ middle => middle.roster = second.1.roster)
      (silent.mono fun _ _ left _ _ => left) (Only.adapt (redisCommand_only rfl))
      fun acquired third same => ?_
    rw [← same]
    cases acquired with
    | false => exact ensures_throw.mpr fun _ => .inl rfl
    | true =>
        apply (handles third).bind
        intro result last filled
        have released : ((releaseSessionLock sessionId lockOwner).run >>= fun _ =>
            (pure result : Call (Except WsHandlerError Unit))).Only (fills · = none) :=
          Only.bind (redisCommand_drop_only rfl) fun _ => trivial
        apply (ensures_unfilled released).mono
        intro _ after same
        rw [same]
        exact filled

/-- Requests that do not enter a room fill no place. -/
theorem unfilled_handleClientMessage (jwt : Jwt) (request : ClientMessage)
    (other : actor (.message connection request) = none) :
    (handleClientMessage state connection jwt request).run.Only (fills · = none) := by
  have detaches : Detaches state connection (fills · = none) := detaches_of_unfilled fun _ => id
  cases request with
  | attach token => exact detaches.handleAttach (fun _ _ => rfl) (fun _ => rfl) rfl fun _ => rfl
  | logout sessionId =>
      exact detaches.handleLogout (counts_of_unfilled fun _ => id) rfl (fun _ => rfl) rfl
  | sdp => exact detaches.handleSdp fun _ _ _ => rfl
  | candidate => exact detaches.handleCandidate fun _ _ _ => rfl
  | leave => exact detaches.handleLeave rfl
  | create => cases other
  | join => cases other

/-- The nickname in a place is that of the session an action is for. -/
def Owned (who : Option SessionId) (roster : Roster) (place : Place) : Prop :=
  ∃ sessionId, who = some sessionId ∧ place.nickname = roster.named sessionId ∧
    roster.named sessionId ≠ ""

/-- What is filled for the nickname of a session is its own. -/
theorem owned_of_filled {after : Behalf}
    (filled : Filled (before.1.roster.named sessionId) before.2 after) (place : Place) :
    after place = before.2 place ∨ Owned (some sessionId) before.1.roster place :=
  (filled place).imp_right fun own => ⟨sessionId, rfl, own⟩

/-- Handling a request fills places in the name of its session only. -/
theorem owned_handleClientMessage (jwt : Jwt) (request : ClientMessage) :
    (handleClientMessage state connection jwt request).run.Ensures
      (Acts (actor (.message connection request))) before fun _ after =>
        ∀ place : Place, after.2 place = before.2 place ∨
          Owned (actor (.message connection request)) before.1.roster place := by
  by_cases other : actor (.message connection request) = none
  · apply (ensures_unfilled (unfilled_handleClientMessage jwt request other)).mono
    intro _ after same place
    exact .inl (congrFun same place)
  · cases request with
    | create sessionId =>
        apply (filled_withSessionLock fun _ => filled_handleCreateLocked).mono
        intro _ after filled
        exact owned_of_filled filled
    | join sessionId roomId =>
        apply (filled_withSessionLock fun _ => filled_handleJoinLocked roomId).mono
        intro _ after filled
        exact owned_of_filled filled
    | _ => exact absurd rfl other

/-- A command of the connector. -/
theorem unfilled_command {command : Command} (plain : fills (.redis command) = none) :
    (Connector.command command).run.Only (fills · = none) :=
  redisCommand_only plain

/-- The connector's login fills no place of a room. -/
theorem unfilled_auth (config : Connector.Config) (nickname : String) :
    (Connector.auth config nickname).run.Only (fills · = none) := by
  have released (sessionId : SessionId) :
      (Connector.releaseNickLease (Connector.trim nickname) sessionId).run.Only
        (fills · = none) := redisCommand_drop_only rfl
  have created (sessionId : SessionId) : (Connector.sessionCreate sessionId
      (Connector.trim nickname) config.sessionTtlSecs).run.Only (fills · = none) := by
    refine (unfilled_command rfl).except_bind fun _ => ?_
    exact (unfilled_command rfl).except_bind fun _ => redisCommand_drop_only rfl
  unfold Connector.auth
  split
  · trivial
  · have drawn : (issue .newUuid).Only (fills · = none) := issue_only rfl
    refine (Only.lift drawn).except_bind fun sessionId => ?_
    refine (Only.adapt ((unfilled_command rfl).except_bind fun free => ?_)).except_bind fun _ => ?_
    · cases free <;> trivial
    · refine (Only.lift (created sessionId)).except_bind fun result => ?_
      cases result with
      | ok => trivial
      | error => exact (Only.lift (released sessionId)).except_bind fun _ => trivial

/-- The connector's logout fills no place. -/
theorem unfilled_logout (sessionId : SessionId) :
    (Connector.logout sessionId).run.Only (fills · = none) := by
  have deleted : (Connector.sessionDelete sessionId).run.Only (fills · = none) :=
    redisCommand_drop_only rfl
  have released (nickname : Nickname) :
      (Connector.releaseNickLease nickname sessionId).run.Only (fills · = none) :=
    redisCommand_drop_only rfl
  have read : (Connector.sessionGet sessionId).run.Only (fills · = none) :=
    (unfilled_command rfl).except_bind fun _ => trivial
  refine (Only.adapt read).except_bind fun found => ?_
  cases found with
  | none => trivial
  | some session =>
      refine (Only.lift deleted).except_bind fun _ => ?_
      exact (Only.lift (released session.nickname)).except_bind fun _ => trivial

/-- An action fills places in the name of its session only. -/
theorem ensures_owned (setup : Setup) (action : Action) :
    (action.program setup).Ensures (Acts (actor action)) before fun _ after =>
      ∀ place : Place, after.2 place = before.2 place ∨
        Owned (actor action) before.1.roster place := by
  have plain {program : Call Unit} (only : program.Only (fills · = none)) :
      program.Ensures (Acts (actor action)) before fun _ after =>
        ∀ place : Place, after.2 place = before.2 place ∨
          Owned (actor action) before.1.roster place := by
    apply (ensures_unfilled only).mono
    intro _ after same place
    exact .inl (congrFun same place)
  cases action with
  | auth nickname => exact plain (Only.bind (unfilled_auth _ nickname) fun _ => trivial)
  | logout sessionId => exact plain (Only.bind (unfilled_logout sessionId) fun _ => trivial)
  | message connection request =>
      have handled : (handleText (setup.home connection) connection setup.jwt request).Ensures
          (Acts (actor (.message connection request))) before fun _ after =>
            ∀ place : Place, after.2 place = before.2 place ∨
              Owned (actor (.message connection request)) before.1.roster place := by
        apply (owned_handleClientMessage setup.jwt request).bind
        intro result middle owned
        split
        · exact ensures_ret.mpr owned
        · exact ensures_ret.mpr owned
        · apply (ensures_unfilled (issue_only rfl)).mono
          intro _ after same
          rw [same]
          exact owned
      apply handled.bind
      intro _ _ owned
      exact ensures_ret.mpr owned
  | disconnect connection =>
      have detaches : Detaches (setup.home connection) connection (fills · = none) :=
        detaches_of_unfilled fun _ => id
      apply plain
      exact Only.bind (detaches.cleanupConnection (counts_of_unfilled fun _ => id) fun _ => rfl)
        fun _ => issue_only rfl

end Filling

/-! ## The invariant -/

/-- Every place is filled on behalf of a session that has reserved the nickname. -/
structure Held (roster : Roster) (behalf : Behalf) : Prop where
  housed : Housed roster
  reserved : ∀ sessionId, roster.named sessionId ≠ "" →
    roster.reserved (roster.named sessionId) = some sessionId
  issued : ∀ sessionId, roster.named sessionId ≠ "" → sessionId ∈ roster.issued
  held : ∀ place : Place, place.In roster → ∃ sessionId, behalf place = some sessionId ∧
    roster.named sessionId = place.nickname ∧ place.nickname ≠ ""

section Held

variable {before after roster : Roster} {behalf behalf' : Behalf} {who : Option SessionId}
  {sessionId : SessionId} {nickname : Nickname} {setup : Setup} {action : Action}
  {state : State} {connection : ConnectionId}

/-- A reservation is one session's. -/
theorem Held.unique {reached : World × Behalf} (held : Held reached.1.roster reached.2) :
    Unique reached := by
  intro first second inside inside' same
  obtain ⟨one, own, named, nonempty⟩ := held.held first inside
  obtain ⟨other, own', named', -⟩ := held.held second inside'
  have reserved := held.reserved one (named ▸ nonempty)
  have reserved' := held.reserved other (named' ▸ same ▸ nonempty)
  rw [named] at reserved
  rw [named', ← same, reserved] at reserved'
  rw [own, own']
  exact reserved'

/-- Whoever fills places only in its own name keeps what is held. -/
theorem Held.moves (held : Held before behalf) (moves : Moves (Owned who before) before after)
    (filled : ∀ place : Place, place.In after →
      (place.In before ∧ behalf' place = behalf place) ∨ behalf' place = who)
    (owned : ∀ place : Place, behalf' place = behalf place ∨ Owned who before place) :
    Held after behalf' where
  housed := moves.housed held.housed
  reserved sessionId nonempty := by
    rw [moves.named] at nonempty ⊢
    rw [moves.reserved]
    exact held.reserved sessionId nonempty
  issued sessionId nonempty := by
    rw [moves.named] at nonempty
    exact moves.issued (held.issued sessionId nonempty)
  held place inside := by
    have kept (inside : place.In before) (same : behalf' place = behalf place) :
        ∃ sessionId, behalf' place = some sessionId ∧ after.named sessionId = place.nickname ∧
          place.nickname ≠ "" := by
      obtain ⟨sessionId, own, named, nonempty⟩ := held.held place inside
      exact ⟨sessionId, same.trans own, (moves.named sessionId).trans named, nonempty⟩
    by_cases mine : Owned who before place
    · rcases filled place inside with ⟨earlier, same⟩ | now
      · exact kept earlier same
      · obtain ⟨sessionId, rfl, named, nonempty⟩ := mine
        refine ⟨sessionId, now, (moves.named sessionId).trans named.symm, ?_⟩
        rw [named]
        exact nonempty
    · exact kept ((moves.place place inside).resolve_right mine)
        ((owned place).resolve_right mine)

/-- A session whose nickname stands nowhere is given up. -/
theorem Held.giveUp (held : Held roster behalf)
    (absent : ∀ place : Place, place.In roster → place.nickname ≠ roster.named sessionId) :
    Held ((roster.release (roster.named sessionId) sessionId).deleteSession sessionId) behalf := by
  have named (query : SessionId) :
      ((roster.release (roster.named sessionId) sessionId).deleteSession sessionId).named query =
        if query = sessionId then "" else roster.named query := by
    unfold Roster.named
    by_cases same : query = sessionId
    · simp only [same, Roster.deleteSession, Function.update_self, Option.bind_none,
        Option.getD_none, if_true]
    · simp only [Roster.deleteSession, Function.update_of_ne same, if_neg same]
      rfl
  refine ⟨⟨held.housed.bound, held.housed.issued⟩, fun query nonempty => ?_,
    fun query nonempty => ?_, fun place inside => ?_⟩
  · rw [named] at nonempty ⊢
    by_cases same : query = sessionId
    · exact absurd (if_pos same) nonempty
    · rw [if_neg same] at nonempty ⊢
      have reserved := held.reserved query nonempty
      change (if _ then _ else _ : Nickname → Option String) _ = _
      split
      · rename_i own
        have other : roster.named query ≠ roster.named sessionId := by
          intro equal
          rw [← equal, reserved] at own
          exact same (Option.some.inj own)
        rw [Function.update_of_ne other]
        exact reserved
      · exact reserved
  · rw [named] at nonempty
    by_cases same : query = sessionId
    · exact absurd (if_pos same) nonempty
    · rw [if_neg same] at nonempty
      exact held.issued query nonempty
  · have inside : place.In roster := by cases place <;> exact inside
    obtain ⟨owner, own, called, nonempty⟩ := held.held place inside
    refine ⟨owner, own, ?_, nonempty⟩
    rw [named, if_neg]
    · exact called
    · rintro rfl
      exact absent place inside called.symm

/-- A new session is enrolled under a nickname that is free. -/
theorem Held.enroll (held : Held roster behalf) (fresh : sessionId ∉ roster.issued)
    (free : roster.reserved nickname = none) : Held (roster.enroll nickname sessionId) behalf := by
  have named (query : SessionId) : (roster.enroll nickname sessionId).named query =
      if query = sessionId then nickname else roster.named query := by
    rw [Roster.enroll, Roster.named_hset (by decide), Roster.named, Roster.get_hset]
    by_cases same : query = sessionId
    · simp only [same, and_self, if_true, Option.getD_some]
    · simp only [same, false_and, if_false]
      rfl
  have unnamed : roster.named sessionId = "" := by
    by_contra nonempty
    exact fresh (held.issued sessionId nonempty)
  refine ⟨⟨held.housed.bound, fun roomId bound => ?_⟩, fun query nonempty => ?_,
    fun query nonempty => ?_, fun place inside => ?_⟩
  · exact Finset.mem_insert_of_mem (held.housed.issued roomId bound)
  · rw [named] at nonempty ⊢
    change Function.update roster.reserved nickname (some sessionId) _ = _
    by_cases same : query = sessionId
    · rw [if_pos same, Function.update_self, same]
    · rw [if_neg same] at nonempty ⊢
      have reserved := held.reserved query nonempty
      have other : roster.named query ≠ nickname := by
        intro equal
        rw [equal, free] at reserved
        cases reserved
      rw [Function.update_of_ne other]
      exact reserved
  · rw [named] at nonempty
    by_cases same : query = sessionId
    · rw [same]
      exact Finset.mem_insert_self _ _
    · rw [if_neg same] at nonempty
      exact Finset.mem_insert_of_mem (held.issued query nonempty)
  · have inside : place.In roster := by cases place <;> exact inside
    obtain ⟨owner, own, called, nonempty⟩ := held.held place inside
    refine ⟨owner, own, ?_, nonempty⟩
    rw [named, if_neg]
    · exact called
    · rintro rfl
      rw [unnamed] at called
      exact nonempty called.symm

/-- A session that logs out leaves all places of its nickname. -/
theorem Held.logout {accepting : Accepting} {result : Except WsHandlerError Unit}
    {participants : Option (List String)} (held : Held before behalf)
    (tidy : Tidy setup (.message connection (.logout sessionId participants)) before)
    (outcome : LogoutOutcome (setup.home connection) connection sessionId accepting before result
      after) : Held after behalf := by
  have loses {after : Roster} (loses : Loses before after) : Held after behalf :=
    held.moves (loses.moves : Moves (Owned none before) before after)
      (fun place inside => .inl ⟨loses.place inside, rfl⟩) fun _ => .inl rfl
  have ends {left : Roster} {session : SessionState} (held : Held left behalf)
      (named : session.nickname = left.named sessionId)
      (absent : ∀ place : Place, place.In left → place.nickname ≠ left.named sessionId) :
      Held (left.logout (setup.home connection).node connection sessionId session.nickname)
        behalf := by
    rw [named]
    have gone := held.giveUp absent
    have rest : Loses ((left.release (left.named sessionId) sessionId).deleteSession sessionId)
        (left.logout (setup.home connection).node connection sessionId (left.named sessionId)) :=
      (Loses.withSessions (·.remove sessionId)).trans (Loses.attach none)
    exact gone.moves (rest.moves : Moves (Owned none _) _ _)
      (fun place inside => .inl ⟨rest.place inside, rfl⟩) fun _ => .inl rfl
  have checks (session : SessionState) : Loses before
      (before.check (setup.home connection).node connection sessionId session) := .check session
  cases outcome with
  | refused => exact held
  | outside checked room =>
      refine ends (loses (checks _)) ((named_of_checked checked).trans
        ((checks _).named sessionId).symm) fun place inside same => ?_
      rw [(checks _).named] at same
      obtain ⟨_, inRoom, -⟩ := tidy place ((checks _).place inside) same
      rw [← (Roster.session_eq_some.mp checked.found).2.2, room] at inRoom
      cases inRoom
  | @inside _ session roomId victims checked room =>
      have named := named_of_checked checked
      have left : Loses (before.check (setup.home connection).node connection sessionId session)
          ((before.check (setup.home connection).node connection sessionId session).leave
            (setup.home connection).node sessionId roomId session.nickname victims) :=
        .leave victims
      have leaves := (checks session).trans left
      refine ends (loses leaves) (named.trans (leaves.named sessionId).symm)
        fun place inside same => ?_
      rw [leaves.named] at same
      obtain ⟨other, inRoom, standing⟩ := tidy place (leaves.place inside) same
      obtain rfl : roomId = other := by
        rw [← (Roster.session_eq_some.mp checked.found).2.2, room] at inRoom
        exact Option.some.inj inRoom
      rw [same, ← named] at standing
      exact Loses.not_in_leave ((loses (checks session)).housed.bound roomId session.nickname)
        standing (left.place inside) inside

/-- **Step lemma.** -/
theorem Held.effect (held : Held before behalf) (tidy : Tidy setup action before)
    (effect : Effect setup (fun _ _ => False) False action before after)
    (filled : ∀ place : Place, place.In after →
      (place.In before ∧ behalf' place = behalf place) ∨ behalf' place = actor action)
    (owned : ∀ place : Place, behalf' place = behalf place ∨ Owned (actor action) before place) :
    Held after behalf' := by
  have loses (loses : Loses before after) : Held after behalf' :=
    held.moves loses.moves filled owned
  have same (none : actor action = none) : behalf' = behalf := by
    funext place
    refine (owned place).resolve_right ?_
    rintro ⟨_, own, -⟩
    rw [none] at own
    cases own
  cases action with
  | auth nickname =>
      obtain rfl := same rfl
      cases effect with
      | invalid => exact held
      | taken => exact loses (.draw _)
      | enrolled fresh _ _ free => exact held.enroll fresh free
  | logout sessionId =>
      obtain rfl := same rfl
      cases effect with
      | unknown => exact held
      | gone => exact held.giveUp tidy
  | disconnect connection =>
      obtain ⟨cleaned, outcome, rfl⟩ := effect
      exact loses ((loses_of_cleanup outcome).trans (.attach none))
  | message connection request =>
      obtain ⟨result, outcome⟩ := effect
      cases request with
      | attach token =>
          cases outcome with
          | refused => exact loses (.refl _)
          | attached => exact loses ((Loses.hset (by decide)).trans (.check _))
      | logout sessionId participants =>
          obtain rfl := same rfl
          exact held.logout tidy outcome
      | leave =>
          cases outcome with
          | refused unmoved => exact loses (.unmoved unmoved)
          | left => exact loses ((Loses.check _).trans (.leave _))
      | sdp | candidate => exact loses (.unmoved outcome)
      | create sessionId | join sessionId =>
          obtain ⟨lockOwner, ⟨-, rfl⟩ | entry⟩ := outcome
          · exact loses (.draw _)
          · refine held.moves ((Loses.draw lockOwner).moves.trans ((moves_of_entry entry).mono
              fun place own => ?_)) filled owned
            exact ⟨sessionId, rfl, own⟩

/-- A background task that moves nobody loses nothing. -/
theorem loses_of_idles (idles : before.Idles after) : Loses before after where
  members := by rw [idles.members]
  peers node place inside := by
    unfold Roster.peers at inside ⊢
    rw [← idles.nodes]
    exact inside
  named sessionId := by
    unfold Roster.named
    rw [idles.sessions]
  reserved := idles.reserved
  issued := idles.issued
  bound roomId bound := by
    unfold Roster.Bound at bound ⊢
    rw [← idles.bindings]
    exact bound
  closes roomId bound _ := by
    unfold Roster.Bound at bound ⊢
    rw [idles.bindings]
    exact bound

/-- Nobody has been there: no session, no room and no peer. -/
structure Vacant (roster : Roster) : Prop where
  places : ∀ place : Place, ¬ place.In roster
  rooms : ∀ roomId, ¬ roster.Bound roomId
  sessions : ∀ sessionId, roster.named sessionId = ""

/-- Where nobody has been there is nothing to hold. -/
theorem Vacant.held (vacant : Vacant roster) : Held roster behalf where
  housed := ⟨fun roomId nickname member => absurd member (vacant.places (.member roomId nickname)),
    fun roomId bound => absurd bound (vacant.rooms roomId)⟩
  reserved sessionId nonempty := absurd (vacant.sessions sessionId) nonempty
  issued sessionId nonempty := absurd (vacant.sessions sessionId) nonempty
  held place inside := absurd inside (vacant.places place)

end Held

/-! ## Runs -/

/-- **In every run in which a session is given up only while its nickname stands nowhere
that it does not leave, no nickname stands in two places on behalf of two sessions.** -/
theorem unique_of_runs {setup : Setup} {world : World} {behalf : Behalf}
    {labels : List (Option Action)} {after : World × Behalf} (vacant : Vacant world.roster)
    (run : Runs (system setup (Tidy setup)).Step (world, behalf) labels after) : Unique after := by
  have acts (action : Action) (before : World × Behalf) (held : Held before.1.roster before.2)
      (tidy : Tidy setup action before.1.roster) : (action.program setup).Ensures
        (Acts (actor action)) before fun _ after => Held after.1.roster after.2 := by
    apply ((acts_ensures (Action.ensures_exec setup action)).and
      ((ensures_filled _).and (ensures_owned setup action))).mono
    rintro _ after ⟨effect, filled, owned⟩
    exact held.effect tidy effect filled owned
  have idles (before after : World × Behalf) (held : Held before.1.roster before.2)
      (idle : before.1.roster.Idles after.1.roster ∧ after.2 = before.2) :
      Held after.1.roster after.2 := by
    obtain ⟨idle, same⟩ := idle
    rw [same]
    have loses := loses_of_idles idle
    exact held.moves (loses.moves : Moves (Owned none _) _ _)
      (fun place inside => .inl ⟨loses.place inside, rfl⟩) fun _ => .inl rfl
  have held := Turns.invariant (fun state => Held state.1.roster state.2) acts idles
    vacant.held run
  exact held.unique

/-! ## A nickname taken twice -/

/-- The services of one node. -/
def sampleSetup : Setup where
  config := { sessionTtlSecs := 3600 }
  jwt := TokenFormat.openJwt
  home _ := sampleNode

/-- One SFU and no user. -/
def sampleWorld : World :=
  { World.fresh with
    redis := { Redis.empty with instances := Finmap.singleton "sfu-1" sampleSfu } }

/-- The token with which a session may create a room. -/
def createToken (jti sessionId nickname : String) : String :=
  TokenFormat.openJwt.encode sampleNode.config.connectorTokenSecret
    { jti, sessionId, nickname, signalingInstanceId := sampleNode.config.publicNodeId
      intent := "create", roomId := none, iat := 0, exp := 120 }

/-- One outcome of an operation of an action. -/
def sample (action : Action) (hint : Hint) (op : Op) (state : World × Behalf) :
    Option (op.Reply × (World × Behalf)) :=
  (World.sample hint op state.1).map fun outcome =>
    (outcome.1, (outcome.2, note (actor action) op state.2))

/-- What the sampler computes is a step on behalf of the action's session. -/
theorem sample_sound {setup : Setup} {starts : Action → Roster → Prop} (action : Action)
    (hint : Hint) (op : Op) (before : World × Behalf) (reply : op.Reply) (after : World × Behalf)
    (sampled : sample action hint op before = some (reply, after)) :
    (system setup starts).exec action op before reply after := by
  obtain ⟨outcome, found, same⟩ := Option.map_eq_some_iff.mp sampled
  cases same
  exact ⟨World.sample_sound found, rfl⟩

/-- A user comes, attaches a connection and creates a room. -/
def arrives (connection : ConnectionId) (nickname jti sessionId lockOwner roomId : String) :
    List (Action × List Hint) :=
  [(.auth nickname, { names := [sessionId] } :: noHints 4),
    (.message connection (.attach (createToken jti sessionId nickname)), noHints 11),
    (.message connection (.create sessionId),
      noHints 1 ++ { names := [lockOwner] } :: noHints 7 ++ { names := [roomId] } :: noHints 1 ++
        { names := ["sfu-1"] } :: noHints 3 ++ { names := [nickname] } :: noHints 7)]

/-- Nobody has been in the sample world. -/
theorem vacant_sampleWorld : Vacant sampleWorld.roster where
  places place inside := by
    cases place with
    | member => exact Finset.notMem_empty _ inside
    | peer => exact Finmap.notMem_empty inside
  rooms roomId bound := by cases bound
  sessions sessionId := rfl

/-- The action gives up no session. -/
def givesUpNone : Action → Bool
  | .logout _ | .message _ (.logout ..) => false
  | _ => true

/-- An action that gives up no session is tidy. -/
theorem tidy_of_givesUpNone {setup : Setup} {action : Action} {roster : Roster}
    (givesUp : givesUpNone action = true) : Tidy setup action roster := by
  unfold Tidy
  split
  · cases givesUp
  · cases givesUp
  · trivial

/-- Two users are in two rooms under two nicknames. -/
theorem unique_of_runs_arrive : ∃ after, Runs (system sampleSetup (Tidy sampleSetup)).Step
    (sampleWorld, fun _ => none)
    ((arrives 0 "alice" "token-1" "session-1" "lock-1" "room-1" ++
      arrives 1 "bob" "token-2" "session-2" "lock-2" "room-2").map (some ·.1)) after ∧
      (Place.member "room-1" "alice").In after.1.roster ∧ Unique after := by
  have passes : ((system sampleSetup (Tidy sampleSetup)).follow sample
      (fun action _ => givesUpNone action)
      (arrives 0 "alice" "token-1" "session-1" "lock-1" "room-1" ++
        arrives 1 "bob" "token-2" "session-2" "lock-2" "room-2")
      (sampleWorld, fun _ => none)).any (fun after =>
        decide (("room-1", "alice") ∈ after.1.redis.members)) = true := by
    decide +kernel
  have starts (action : Action) (state : World × Behalf) (passed : givesUpNone action = true) :
      (system sampleSetup (Tidy sampleSetup)).starts action state := tidy_of_givesUpNone passed
  obtain ⟨after, run, tested⟩ := Turns.exists_of_follow sample_sound starts passes
  have inside : ("room-1", "alice") ∈ after.1.redis.members := of_decide_eq_true tested
  exact ⟨after, run, inside, unique_of_runs vacant_sampleWorld run⟩

/-- **Alice logs out over HTTP while she is in a room**: another user takes her nickname
and enters a second room. -/
theorem taken_twice : ∃ after, Runs (system sampleSetup fun _ _ => True).Step
    (sampleWorld, fun _ => none)
    ((arrives 0 "alice" "token-1" "session-1" "lock-1" "room-1" ++
      (Action.logout "session-1", noHints 3) ::
        arrives 1 "alice" "token-2" "session-2" "lock-2" "room-2").map (some ·.1)) after ∧
      ¬ Unique after := by
  have passes : ((system sampleSetup fun _ _ => True).follow sample (fun _ _ => true)
      (arrives 0 "alice" "token-1" "session-1" "lock-1" "room-1" ++
        (Action.logout "session-1", noHints 3) ::
          arrives 1 "alice" "token-2" "session-2" "lock-2" "room-2")
      (sampleWorld, fun _ => none)).any (fun after =>
        decide (("room-1", "alice") ∈ after.1.redis.members) &&
          decide (("room-2", "alice") ∈ after.1.redis.members) &&
          decide (after.2 (.member "room-1" "alice") ≠ after.2 (.member "room-2" "alice"))) =
      true := by
    decide +kernel
  have starts (action : Action) (state : World × Behalf) (_ : true = true) :
      (system sampleSetup fun _ _ => True).starts action state := trivial
  obtain ⟨after, run, tested⟩ := Turns.exists_of_follow sample_sound starts passes
  simp only [Bool.and_eq_true, decide_eq_true_eq] at tested
  obtain ⟨⟨first, second⟩, other⟩ := tested
  exact ⟨after, run, fun unique => other (unique (.member _ _) (.member _ _) first second rfl)⟩

end Callifornia.Names
