import Callifornia.Concurrency.Transition
import Callifornia.Signaling.SessionRegistry

/-! # The sessions of a room

The session registry can be read in both directions: from a session to its room, and from
a room to its sessions. Every operation changes both maps and keeps them in step.
-/

namespace Callifornia.Signaling

open Concurrency FiniteMap Store

namespace SessionStore

variable (store : SessionStore)

/-- A store without sessions; `clear` leaves it behind. -/
def empty : SessionStore := ⟨∅, ∅⟩

/-- The room of a session, if it is known and in one. -/
def roomOf (sessionId : SessionId) : Option RoomId :=
  (store.bySessionId.lookup sessionId).bind SessionState.roomId

/-- The sessions listed under a room. -/
def listed (roomId : RoomId) : Finset SessionId := (store.byRoomId.lookup roomId).getD ∅

/-- **The index is exact.** Under each room its sessions are listed, and no room is kept
without any. -/
structure Exact (store : SessionStore) : Prop where
  listed : ∀ sessionId roomId,
    sessionId ∈ store.listed roomId ↔ store.roomOf sessionId = some roomId
  occupied : ∀ roomId, store.byRoomId.lookup roomId ≠ some ∅

/-- No room is kept without sessions. -/
def Occupied (byRoomId : Map RoomId (Finset SessionId)) : Prop :=
  ∀ roomId, byRoomId.lookup roomId ≠ some ∅

variable {store} {sessionId query : SessionId} {roomId other : RoomId}

/-! ## Links -/

theorem listed_removeRoomLink : (store.removeRoomLink sessionId roomId).listed other =
    if other = roomId then (store.listed roomId).erase sessionId else store.listed other := by
  unfold removeRoomLink listed
  cases found : store.byRoomId.lookup roomId with
  | none =>
      by_cases same : other = roomId
      · rw [if_pos same, same, found]
        rfl
      · rw [if_neg same]
  | some ids =>
      by_cases last : ids.erase sessionId = ∅
      · simp only [last, ↓reduceIte, lookup_erase_if]
        split
        · exact last.symm
        · rfl
      · simp only [last, ↓reduceIte, lookup_insert_if]
        split <;> rfl

theorem occupied_removeRoomLink (occupied : Occupied store.byRoomId) :
    Occupied (store.removeRoomLink sessionId roomId).byRoomId := by
  unfold removeRoomLink
  split
  · exact occupied
  · rename_i ids found
    intro query
    by_cases last : ids.erase sessionId = ∅
    · simp only [last, ↓reduceIte, lookup_erase_if]
      split
      · nofun
      · exact occupied query
    · simp only [last, ↓reduceIte, lookup_insert_if]
      split
      · exact mt Option.some.inj last
      · exact occupied query

theorem listed_addRoomLink : (store.addRoomLink sessionId roomId).listed other =
    if other = roomId then insert sessionId (store.listed roomId) else store.listed other := by
  simp only [addRoomLink, listed, lookup_insert_if]
  split <;> rfl

theorem occupied_addRoomLink (occupied : Occupied store.byRoomId) :
    Occupied (store.addRoomLink sessionId roomId).byRoomId := by
  intro query
  simp only [addRoomLink, lookup_insert_if]
  split
  · exact mt Option.some.inj (Finset.insert_ne_empty _ _)
  · exact occupied query

theorem mem_listed_dropPrevious {previous : Option SessionState}
    (known : ∀ roomId, sessionId ∈ store.listed roomId →
      previous.bind SessionState.roomId = some roomId) :
    query ∈ (store.dropPrevious sessionId previous).listed other ↔
      query ≠ sessionId ∧ query ∈ store.listed other := by
  have unlisted (left : previous.bind SessionState.roomId ≠ some other) :
      query ∈ store.listed other ↔ query ≠ sessionId ∧ query ∈ store.listed other := by
    refine (and_iff_right_of_imp fun member same => ?_).symm
    exact left (known other (same ▸ member))
  rcases previous with _ | ⟨_, _ | previousRoom⟩
  · exact unlisted nofun
  · exact unlisted nofun
  · rw [dropPrevious, listed_removeRoomLink]
    by_cases same : other = previousRoom
    · rw [if_pos same, Finset.mem_erase, same]
    · rw [if_neg same]
      exact unlisted fun left => same (Option.some.inj left).symm

/-- A session that is taken out of its room and put into another is listed there only. -/
theorem mem_listed_relink {previous : Option SessionState} {room : Option RoomId}
    (known : ∀ roomId, sessionId ∈ store.listed roomId →
      previous.bind SessionState.roomId = some roomId) :
    query ∈ ((store.dropPrevious sessionId previous).linkRoom sessionId room).listed other ↔
      (query = sessionId ∧ room = some other) ∨
        (query ≠ sessionId ∧ query ∈ store.listed other) := by
  have dropped (roomId : RoomId) := @mem_listed_dropPrevious store sessionId query roomId _ known
  cases room with
  | none =>
      rw [linkRoom, dropped]
      exact (or_iff_right fun both => nomatch both.2).symm
  | some roomId =>
      rw [linkRoom, listed_addRoomLink]
      by_cases same : other = roomId
      · rw [if_pos same, Finset.mem_insert, dropped, same]
        exact or_congr_left (and_iff_left rfl).symm
      · rw [if_neg same, dropped]
        exact (or_iff_right fun both => same (Option.some.inj both.2).symm).symm

theorem occupied_relink {previous : Option SessionState} {room : Option RoomId}
    (occupied : Occupied store.byRoomId) :
    Occupied ((store.dropPrevious sessionId previous).linkRoom sessionId room).byRoomId := by
  have dropped : Occupied (store.dropPrevious sessionId previous).byRoomId := by
    rcases previous with _ | ⟨_, _ | previousRoom⟩
    · exact occupied
    · exact occupied
    · exact occupied_removeRoomLink occupied
  cases room with
  | none => exact dropped
  | some roomId => exact occupied_addRoomLink dropped

/-! ## Operations -/

theorem exact_empty : empty.Exact :=
  ⟨fun _ _ => iff_of_false (Finset.notMem_empty _) nofun, fun _ => nofun⟩

/-- The index of a store in which one session is replaced is exact if its links are. -/
theorem Exact.relink (exact : store.Exact) {after : SessionStore} {room : Option RoomId}
    {previous : SessionStore} (sessions : previous.byRoomId = store.byRoomId)
    (links : after.byRoomId = ((previous.dropPrevious sessionId
      (store.bySessionId.lookup sessionId)).linkRoom sessionId room).byRoomId)
    (own : after.roomOf sessionId = room)
    (others : ∀ query, query ≠ sessionId → after.roomOf query = store.roomOf query) :
    after.Exact := by
  have same (roomId : RoomId) : previous.listed roomId = store.listed roomId := by
    rw [SessionStore.listed, SessionStore.listed, sessions]
  have known (roomId : RoomId) (member : sessionId ∈ previous.listed roomId) :
      (store.bySessionId.lookup sessionId).bind SessionState.roomId = some roomId :=
    (exact.listed sessionId roomId).mp (same roomId ▸ member)
  constructor
  · intro query roomId
    rw [SessionStore.listed, links]
    refine (mem_listed_relink known).trans ?_
    by_cases here : query = sessionId
    · rw [here, own]
      simp
    · rw [others query here, same, ← exact.listed]
      simp [here]
  · rw [links]
    refine occupied_relink ?_
    rw [sessions]
    exact exact.occupied

theorem Exact.upsert (exact : store.Exact) (session : SessionState) :
    (store.upsert sessionId session).Exact := by
  refine @Exact.relink store sessionId exact _ session.roomId
    { store with bySessionId := store.bySessionId.insert sessionId session } rfl rfl ?_
    fun query apart => ?_
  · rw [roomOf, lookup_upsert, if_pos rfl]
    rfl
  · rw [roomOf, lookup_upsert, if_neg apart]
    rfl

theorem Exact.remove (exact : store.Exact) : (store.remove sessionId).Exact := by
  refine @Exact.relink store sessionId exact _ none
    { store with bySessionId := store.bySessionId.erase sessionId } rfl rfl ?_ fun query apart => ?_
  · rw [roomOf, lookup_remove, if_pos rfl]
    rfl
  · rw [roomOf, lookup_remove, if_neg apart]
    rfl

theorem Exact.setRoom (exact : store.Exact) (room : Option RoomId) :
    (store.setRoom sessionId room).Exact := by
  cases found : store.bySessionId.lookup sessionId with
  | none =>
      rw [SessionStore.setRoom, found]
      exact exact
  | some session =>
      refine @Exact.relink store sessionId exact _ room store rfl ?_ ?_ fun query apart => ?_
      · rw [SessionStore.setRoom, found]
      · rw [roomOf, lookup_setRoom, if_pos rfl, found]
        rfl
      · rw [roomOf, lookup_setRoom, if_neg apart]
        rfl

/-- What emptying a room does. -/
structure Cleared (store : SessionStore) (roomId : RoomId) (affected : List SessionId)
    (after : SessionStore) : Prop where
  once : affected.Nodup
  affected : ∀ sessionId, sessionId ∈ affected ↔ store.roomOf sessionId = some roomId
  sessions : ∀ sessionId, after.bySessionId.lookup sessionId =
    if store.roomOf sessionId = some roomId then
      (store.bySessionId.lookup sessionId).map ({ · with roomId := none })
    else store.bySessionId.lookup sessionId

theorem Exact.clearRoom (exact : store.Exact) {sessionIds : List SessionId}
    (all : Enumerates sessionIds (store.listed roomId)) :
    Cleared store roomId (store.clearRoom roomId sessionIds).1
        (store.clearRoom roomId sessionIds).2 ∧
      (store.clearRoom roomId sessionIds).2.Exact := by
  have mem_iff (sessionId : SessionId) :
      sessionId ∈ sessionIds ↔ store.roomOf sessionId = some roomId :=
    all.mem_iff.trans (exact.listed sessionId roomId)
  have cleared : Cleared store roomId (store.clearRoom roomId sessionIds).1
      (store.clearRoom roomId sessionIds).2 := by
    refine ⟨all.1.filter _, fun sessionId => ?_, fun sessionId => ?_⟩
    · rw [SessionStore.clearRoom, List.mem_filter, mem_iff]
      refine and_iff_left_of_imp fun inside => decide_eq_true ?_
      obtain ⟨session, found, -⟩ := Option.bind_eq_some_iff.mp inside
      exact Finmap.mem_of_lookup_eq_some found
    · rw [lookup_clearRoom]
      exact if_congr (mem_iff sessionId) rfl rfl
  have roomOf_iff (sessionId : SessionId) (other : RoomId) :
      (store.clearRoom roomId sessionIds).2.roomOf sessionId = some other ↔
        other ≠ roomId ∧ store.roomOf sessionId = some other := by
    rw [roomOf, cleared.sessions]
    by_cases inside : store.roomOf sessionId = some roomId
    · rw [if_pos inside, inside]
      refine iff_of_false ?_ fun both => both.1 (Option.some.inj both.2).symm
      cases store.bySessionId.lookup sessionId <;> nofun
    · rw [if_neg inside]
      refine (and_iff_right_of_imp fun found same => ?_).symm
      rw [← same] at inside
      exact inside found
  refine ⟨cleared, fun sessionId other => ?_, fun other => ?_⟩
  · rw [roomOf_iff, ← exact.listed]
    simp only [SessionStore.listed, SessionStore.clearRoom, lookup_erase_if]
    by_cases same : other = roomId
    · simp [same]
    · simp [same]
  · simp only [SessionStore.clearRoom, lookup_erase_if]
    split
    · nofun
    · exact exact.occupied other

end SessionStore

/-! ## Runs -/

namespace SessionRegistry

/-- One critical section of the registry. -/
inductive Step : (command : Command) × command.Reply → SessionStore → SessionStore → Prop
  | takes {command : Command} {reply : command.Reply} {before after : SessionStore} :
      exec command before reply after → Step ⟨command, reply⟩ before after

/-- **Step lemma.** Every critical section keeps the index exact. -/
theorem Step.exact {label : (command : Command) × command.Reply}
    {before after : SessionStore} (step : Step label before after) (exact : before.Exact) :
    after.Exact := by
  cases step with
  | @takes command reply _ _ effect =>
      cases command with
      | upsert sessionId session =>
          rw [show after = _ from effect]
          exact exact.upsert session
      | get sessionId =>
          rw [effect.2]
          exact exact
      | remove sessionId =>
          rw [show after = _ from effect]
          exact exact.remove
      | setRoom sessionId roomId =>
          rw [show after = _ from effect]
          exact exact.setRoom roomId
      | clearRoom roomId =>
          obtain ⟨sessionIds, all, same⟩ := effect
          rw [show after = (before.clearRoom roomId sessionIds).2 from congrArg Prod.snd same]
          exact (exact.clearRoom all).2
      | clear =>
          rw [show after = .empty from effect]
          exact SessionStore.exact_empty

/-- **The index stays exact.** After any sections it is, and a room that is emptied next
returns its sessions, each once, and leaves every other session as it is. -/
theorem index_exact {labels : List ((command : Command) × command.Reply)}
    {store : SessionStore} (run : Runs Step .empty labels store) :
    store.Exact ∧ ∀ roomId affected after, exec (.clearRoom roomId) store affected after →
      store.Cleared roomId affected after := by
  have exact : store.Exact := by
    apply run.invariant (fun _ _ _ exact step => Step.exact step exact)
    exact SessionStore.exact_empty
  refine ⟨exact, ?_⟩
  rintro roomId affected after ⟨sessionIds, all, same⟩
  obtain ⟨rfl, rfl⟩ := Prod.mk.inj same
  exact (exact.clearRoom all).1

/-- Two sessions enter a room, and one of them moves on. -/
theorem index_exact_moved : ∃ store, SessionStore.roomOf store "session-1" = some "room-2" ∧
    store.Exact ∧ ∀ roomId affected after, exec (.clearRoom roomId) store affected after →
      store.Cleared roomId affected after := by
  have enters (sessionId : SessionId) (nickname : Nickname) (before : SessionStore) :=
    @Step.takes (.upsert sessionId ⟨nickname, some "room-1"⟩) () before _ rfl
  have moves (before : SessionStore) :=
    @Step.takes (.setRoom "session-1" (some "room-2")) () before _ rfl
  exact ⟨_, rfl, index_exact (.cons (enters "session-1" "alice" _)
    (.cons (enters "session-2" "bob" _) (.cons (moves _) .nil)))⟩

end SessionRegistry

end Callifornia.Signaling
