import Callifornia.Store.Keyspace
import Callifornia.Store.Redis

/-! # The keys of the store

The services name what they keep in Redis by texts. Every key starts with a fixed text, the area
it belongs to, and no such text starts with another; so two keys agree only if they are of one
area. Within an area only the lock of a session can be mistaken for another session, whose key
ends in `:lock`.
-/

namespace Callifornia.Store

open Keyspace

/-! ## Key builders -/

def signalingNodesKey : String := "signaling:nodes"
def signalingInstanceLoadKey : String := "signaling:instance_load"
def signalingSessionPrefix : String := "signaling:session:"
def signalingNickPrefix : String := "signaling:nick:"
def signalingRoomPrefix : String := "signaling:room:"
def signalingJtiPrefix : String := "signaling:jti:"
def roomBindingPrefix : String := "room:"
def sfuInstancesKey : String := "sfu:instances"
def sfuRoomLoadKey : String := "sfu:room_load"
def supervisorHeartbeatKey : String := "supervisor:heartbeat"

def sessionKey (sessionId : SessionId) : String := signalingSessionPrefix ++ sessionId

def sessionLockKey (sessionId : SessionId) : String :=
  signalingSessionPrefix ++ (sessionId ++ ":lock")

def nickKey (nickname : Nickname) : String := signalingNickPrefix ++ nickname

def jtiKey (id : String) : String := signalingJtiPrefix ++ id

def roomMembersKey (roomId : RoomId) : String := signalingRoomPrefix ++ (roomId ++ ":members")

def roomBindingKey (roomId : RoomId) : String := roomBindingPrefix ++ (roomId ++ ":binding")

/-! ## Keys by what they hold -/

/-- A key of the services. -/
inductive Key
  | hash (key : HashKey)
  | members (roomId : RoomId)
  | scores (set : SortedSet)
  | string (key : StringKey)
  | instances
  | heartbeat
  deriving DecidableEq

def HashKey.text : HashKey → String
  | .binding roomId => roomBindingKey roomId
  | .session sessionId => sessionKey sessionId

def SortedSet.text : SortedSet → String
  | .roomLoad => sfuRoomLoadKey
  | .instanceLoad => signalingInstanceLoadKey
  | .signalingNodes => signalingNodesKey

def StringKey.text : StringKey → String
  | .nick nickname => nickKey nickname
  | .sessionLock sessionId => sessionLockKey sessionId
  | .jti id => jtiKey id

def Key.text : Key → String
  | .hash key => key.text
  | .members roomId => roomMembersKey roomId
  | .scores set => set.text
  | .string key => key.text
  | .instances => sfuInstancesKey
  | .heartbeat => supervisorHeartbeatKey

/-- The key of the session does not end as that of a lock does. -/
def Proper (sessionId : SessionId) : Prop := stripSuffix ":lock" (sessionKey sessionId) = none

instance (sessionId : SessionId) : Decidable (Proper sessionId) :=
  inferInstanceAs (Decidable (_ = _))

/-- A proper session id is not the id of a lock, so the scan of sessions keeps it. -/
theorem Proper.stripSuffix_eq_none {sessionId : SessionId} (proper : Proper sessionId) :
    stripSuffix ":lock" sessionId = none := by
  refine Option.eq_none_iff_forall_ne_some.mpr fun start found => ?_
  rw [stripSuffix_eq_some] at found
  have ends : stripSuffix ":lock" (sessionKey sessionId) =
      some (signalingSessionPrefix ++ start) := by
    rw [stripSuffix_eq_some, sessionKey, found, String.append_assoc]
  rw [show stripSuffix ":lock" (sessionKey sessionId) = none from proper] at ends
  cases ends

/-- The key cannot be mistaken for a lock. -/
def HashKey.Proper : HashKey → Prop
  | .binding _ => True
  | .session sessionId => Store.Proper sessionId

/-- The key cannot be mistaken for a lock. -/
def Key.Proper : Key → Prop
  | .hash key => key.Proper
  | _ => True

/-! ## Areas -/

/-- The texts keys start with. -/
inductive Area
  | sessions
  | nicks
  | rooms
  | jtis
  | bindings
  | nodes
  | instanceLoad
  | instances
  | roomLoad
  | heartbeat
  deriving DecidableEq

def Area.head : Area → String
  | .sessions => signalingSessionPrefix
  | .nicks => signalingNickPrefix
  | .rooms => signalingRoomPrefix
  | .jtis => signalingJtiPrefix
  | .bindings => roomBindingPrefix
  | .nodes => signalingNodesKey
  | .instanceLoad => signalingInstanceLoadKey
  | .instances => sfuInstancesKey
  | .roomLoad => sfuRoomLoadKey
  | .heartbeat => supervisorHeartbeatKey

/-- No area starts with another. -/
theorem Area.head_inj (area other : Area) :
    area.head.toList <+: other.head.toList → area = other := by
  cases area <;> cases other <;> decide

namespace Key

def area : Key → Area
  | .hash (.binding _) => .bindings
  | .hash (.session _) => .sessions
  | .members _ => .rooms
  | .scores .roomLoad => .roomLoad
  | .scores .instanceLoad => .instanceLoad
  | .scores .signalingNodes => .nodes
  | .string (.nick _) => .nicks
  | .string (.sessionLock _) => .sessions
  | .string (.jti _) => .jtis
  | .instances => .instances
  | .heartbeat => .heartbeat

/-- What follows the area. -/
def rest : Key → String
  | .hash (.binding roomId) => roomId ++ ":binding"
  | .hash (.session sessionId) => sessionId
  | .members roomId => roomId ++ ":members"
  | .string (.nick nickname) => nickname
  | .string (.sessionLock sessionId) => sessionId ++ ":lock"
  | .string (.jti id) => id
  | .scores _ | .instances | .heartbeat => ""

/-- A key is its area and the rest. -/
theorem text_eq (key : Key) : key.text = key.area.head ++ key.rest := by
  cases key with
  | hash key => cases key <;> rfl
  | members roomId => rfl
  | scores set => cases set <;> exact String.append_empty.symm
  | string key => cases key <;> rfl
  | instances => exact String.append_empty.symm
  | heartbeat => exact String.append_empty.symm

variable {key other : Key}

/-- Equal texts are of one area. -/
theorem area_eq (same : key.text = other.text) : key.area = other.area := by
  rw [text_eq, text_eq] at same
  have starts : key.area.head.toList <+: (other.area.head ++ other.rest).toList := by
    rw [← same, String.toList_append]
    exact List.prefix_append _ _
  rw [String.toList_append] at starts
  rcases List.prefix_or_prefix_of_prefix starts (List.prefix_append _ _) with first | second
  · exact Area.head_inj _ _ first
  · exact (Area.head_inj _ _ second).symm

/-- Two keys with one text have the same area, hence the same rest. -/
theorem rest_eq (same : key.text = other.text) : key.rest = other.rest := by
  have area := area_eq same
  rw [text_eq, text_eq, area] at same
  exact String.append_right_inj _ |>.mp same

/-- The key of an area with a rest. -/
def ofRest : Area → String → Option Key
  | .sessions, rest =>
      match stripSuffix ":lock" rest with
      | some sessionId => some (.string (.sessionLock sessionId))
      | none => some (.hash (.session rest))
  | .nicks, rest => some (.string (.nick rest))
  | .rooms, rest => (stripSuffix ":members" rest).map .members
  | .jtis, rest => some (.string (.jti rest))
  | .bindings, rest => (stripSuffix ":binding" rest).map fun roomId => .hash (.binding roomId)
  | .nodes, _ => some (.scores .signalingNodes)
  | .instanceLoad, _ => some (.scores .instanceLoad)
  | .instances, _ => some .instances
  | .roomLoad, _ => some (.scores .roomLoad)
  | .heartbeat, _ => some .heartbeat

/-- What stands behind the area tells which key it is. -/
theorem ofRest_rest (proper : key.Proper) : ofRest key.area key.rest = some key := by
  cases key with
  | hash key =>
      cases key with
      | binding roomId =>
          simp only [area, rest, ofRest, stripSuffix_eq_some.mpr rfl, Option.map_some]
      | session sessionId =>
          simp only [area, rest, ofRest, Proper.stripSuffix_eq_none proper]
  | members roomId => simp only [area, rest, ofRest, stripSuffix_eq_some.mpr rfl, Option.map_some]
  | scores set => cases set <;> rfl
  | string key =>
      cases key with
      | nick nickname => rfl
      | sessionLock sessionId => simp only [area, rest, ofRest, stripSuffix_eq_some.mpr rfl]
      | jti id => rfl
  | instances => rfl
  | heartbeat => rfl

/-- **Keys do not clash**: two keys of the services have one text only if they are the same. -/
theorem text_inj (proper : key.Proper) (proper' : other.Proper) :
    key.text = other.text ↔ key = other := by
  refine ⟨fun same => ?_, congrArg text⟩
  have decoded := ofRest_rest proper
  rw [area_eq same, rest_eq same, ofRest_rest proper'] at decoded
  exact (Option.some.inj decoded).symm

end Key

end Callifornia.Store
