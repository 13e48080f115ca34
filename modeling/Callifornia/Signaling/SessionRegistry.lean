import Callifornia.Signaling.PeerRegistry

/-! # The sessions attached to a signaling node

The registry keeps each session's state and, for each room, the set of the
sessions in it.
-/

namespace Callifornia.Signaling

open FiniteMap Store

/-- What the node knows of a session. -/
structure SessionState where
  nickname : Nickname
  roomId : Option RoomId
  deriving DecidableEq

structure SessionStore where
  bySessionId : Map SessionId SessionState
  byRoomId : Map RoomId (Finset SessionId)

namespace SessionStore

variable (store : SessionStore)

/-- Drop a session from the set of a room, and the set with its last session. -/
def removeRoomLink (sessionId : SessionId) (roomId : RoomId) : SessionStore :=
  match store.byRoomId.lookup roomId with
  | none => store
  | some ids =>
      { store with
        byRoomId := if ids.erase sessionId = ∅ then store.byRoomId.erase roomId
          else store.byRoomId.insert roomId (ids.erase sessionId) }

/-- Add a session to the set of a room. -/
def addRoomLink (sessionId : SessionId) (roomId : RoomId) : SessionStore :=
  { store with
    byRoomId := store.byRoomId.insert roomId
      (insert sessionId ((store.byRoomId.lookup roomId).getD ∅)) }

/-- Drop the link of the room a session was in. -/
def dropPrevious (sessionId : SessionId) : Option SessionState → SessionStore
  | some ⟨_, some previousRoom⟩ => store.removeRoomLink sessionId previousRoom
  | _ => store

/-- Add the link of the room a session is in, if any. -/
def linkRoom (sessionId : SessionId) : Option RoomId → SessionStore
  | some roomId => store.addRoomLink sessionId roomId
  | none => store

def upsert (sessionId : SessionId) (session : SessionState) : SessionStore :=
  (dropPrevious { store with bySessionId := store.bySessionId.insert sessionId session } sessionId
    (store.bySessionId.lookup sessionId)).linkRoom sessionId session.roomId

def remove (sessionId : SessionId) : SessionStore :=
  dropPrevious { store with bySessionId := store.bySessionId.erase sessionId } sessionId
    (store.bySessionId.lookup sessionId)

def setRoom (sessionId : SessionId) (roomId : Option RoomId) : SessionStore :=
  match store.bySessionId.lookup sessionId with
  | none => store
  | some session =>
      let linked := (store.dropPrevious sessionId (some session)).linkRoom sessionId roomId
      { linked with bySessionId := linked.bySessionId.insert sessionId { session with roomId } }

@[simp] theorem bySessionId_dropPrevious (sessionId : SessionId) (previous : Option SessionState) :
    (store.dropPrevious sessionId previous).bySessionId = store.bySessionId := by
  unfold dropPrevious removeRoomLink
  split
  · split <;> rfl
  · rfl

@[simp] theorem bySessionId_linkRoom (sessionId : SessionId) (roomId : Option RoomId) :
    (store.linkRoom sessionId roomId).bySessionId = store.bySessionId := by
  cases roomId <;> rfl

theorem lookup_upsert (sessionId query : SessionId) (session : SessionState) :
    (store.upsert sessionId session).bySessionId.lookup query =
      if query = sessionId then some session else store.bySessionId.lookup query := by
  simp only [upsert, bySessionId_linkRoom, bySessionId_dropPrevious, lookup_insert_if]

theorem lookup_remove (sessionId query : SessionId) :
    (store.remove sessionId).bySessionId.lookup query =
      if query = sessionId then none else store.bySessionId.lookup query := by
  simp only [remove, bySessionId_dropPrevious, lookup_erase_if]

theorem lookup_setRoom (sessionId query : SessionId) (roomId : Option RoomId) :
    (store.setRoom sessionId roomId).bySessionId.lookup query =
      if query = sessionId then (store.bySessionId.lookup sessionId).map ({ · with roomId })
      else store.bySessionId.lookup query := by
  unfold setRoom
  cases found : store.bySessionId.lookup sessionId with
  | none =>
      by_cases same : query = sessionId
      · rw [if_pos same, same, found]
        rfl
      · rw [if_neg same]
  | some session =>
      simp only [bySessionId_linkRoom, bySessionId_dropPrevious, lookup_insert_if, Option.map_some]

/-- Empty a room whose set of sessions is met in this order. -/
def clearRoom (roomId : RoomId) (sessionIds : List SessionId) : List SessionId × SessionStore :=
  (sessionIds.filter (· ∈ store.bySessionId),
    { byRoomId := store.byRoomId.erase roomId
      bySessionId := sessionIds.foldl
        (fun sessions sessionId => adjust sessions sessionId ({ · with roomId := none }))
        store.bySessionId })

theorem lookup_clearRoom (roomId : RoomId) (sessionIds : List SessionId) (query : SessionId) :
    (store.clearRoom roomId sessionIds).2.bySessionId.lookup query =
      if query ∈ sessionIds then
        (store.bySessionId.lookup query).map ({ · with roomId := none })
      else store.bySessionId.lookup query := by
  have settled (session : SessionState) :
      ({ ({ session with roomId := none } : SessionState) with roomId := none } : SessionState) =
        { session with roomId := none } := rfl
  exact lookup_foldl_adjust settled sessionIds store.bySessionId query

end SessionStore

namespace SessionRegistry

/-- One critical section of the registry's lock. -/
inductive Command
  | upsert (sessionId : SessionId) (session : SessionState)
  | get (sessionId : SessionId)
  | remove (sessionId : SessionId)
  | setRoom (sessionId : SessionId) (roomId : Option RoomId)
  | clearRoom (roomId : RoomId)
  | clear

@[reducible] def Command.Reply : Command → Type
  | .upsert .. | .remove _ | .setRoom .. | .clear => Unit
  | .get _ => Option SessionState
  | .clearRoom _ => List SessionId

/-- The effect of one critical section. -/
def exec : (command : Command) → SessionStore → command.Reply → SessionStore → Prop
  | .upsert sessionId session, store, _, after => after = store.upsert sessionId session
  | .get sessionId, store, reply, after =>
      reply = store.bySessionId.lookup sessionId ∧ after = store
  | .remove sessionId, store, _, after => after = store.remove sessionId
  | .setRoom sessionId roomId, store, _, after => after = store.setRoom sessionId roomId
  | .clearRoom roomId, store, reply, after =>
      ∃ sessionIds, Enumerates sessionIds ((store.byRoomId.lookup roomId).getD ∅) ∧
        (reply, after) = store.clearRoom roomId sessionIds
  | .clear, _, _, after => after = ⟨∅, ∅⟩

end SessionRegistry

end Callifornia.Signaling
