import Callifornia.Signaling.Message

/-! # Who a client shows in its room

A client learns who is in its room when it enters, and keeps its list up to date with every
participant that is announced to come or to go.
-/

namespace Callifornia.Client

open Signaling

/-- What a client shows of the room it is in. -/
structure ActiveRoom where
  roomId : RoomId
  yourNickname : Nickname
  participants : List Nickname
  deriving DecidableEq

def uniqueParticipants (participants : List Nickname) : List Nickname :=
  participants.foldl (fun unique name => if name ∈ unique then unique else unique ++ [name]) []

/-- The room of a snapshot, `From<RoomSnapshot>`. -/
def ActiveRoom.ofSnapshot (roomId : RoomId) (yourNickname : Nickname)
    (participants : List Nickname) : ActiveRoom :=
  ⟨roomId, yourNickname, uniqueParticipants participants⟩

def activeRoomWithParticipant (room : Option ActiveRoom) (nickname : Nickname) :
    Option ActiveRoom :=
  room.map fun room =>
    if nickname ∈ room.participants then room
    else { room with participants := room.participants ++ [nickname] }

def activeRoomWithoutParticipant (room : Option ActiveRoom) (nickname : Nickname) :
    Option ActiveRoom :=
  room.map fun room => { room with participants := room.participants.filter (· ≠ nickname) }

/-- The participants of a `joined` message, the client among them. -/
def withYourself (yourNickname : Nickname) (participants : List Nickname) : List Nickname :=
  if yourNickname ∈ participants then participants else participants ++ [yourNickname]

/-- What the client shows after a message. -/
def onMessage (room : Option ActiveRoom) : ServerMessage → Option ActiveRoom
  | .created roomId yourNickname => some (.ofSnapshot roomId yourNickname [yourNickname])
  | .joined roomId yourNickname participants =>
      some (.ofSnapshot roomId yourNickname (withYourself yourNickname participants))
  | .participantJoined nickname => activeRoomWithParticipant room nickname
  | .participantLeft nickname => activeRoomWithoutParticipant room nickname
  | .left _ | .roomClosed .. | .serviceUnavailable .. => none
  | .error code _ =>
      if code = .invalidRoomAssignment ∨ code = .sfuCapacityExhausted then none else room
  | .attached .. | .loggedOut _ | .sdp .. | .candidate .. => room

/-- What the client shows after some messages. -/
def activeRoom (messages : List ServerMessage) : Option ActiveRoom :=
  messages.foldl onMessage none

/-- Who is shown. -/
def shown (room : Option ActiveRoom) : Finset Nickname :=
  ((room.map ActiveRoom.participants).getD []).toFinset

/-- The message that tells of a participant who came or went. -/
def announcement (joined : Bool) (nickname : Nickname) : ServerMessage :=
  if joined then .participantJoined nickname else .participantLeft nickname

variable {room : Option ActiveRoom} {nickname query : Nickname} {messages : List ServerMessage}

theorem activeRoom_append (messages rest : List ServerMessage) :
    activeRoom (messages ++ rest) = rest.foldl onMessage (activeRoom messages) :=
  List.foldl_append

/-- Every name is kept once. -/
theorem mem_uniqueParticipants {participants : List Nickname} :
    query ∈ uniqueParticipants participants ↔ query ∈ participants := by
  have kept (unique : List Nickname) : query ∈ participants.foldl (fun unique name =>
      if name ∈ unique then unique else unique ++ [name]) unique ↔
        query ∈ unique ∨ query ∈ participants := by
    induction participants generalizing unique with
    | nil => simp only [List.foldl_nil, List.not_mem_nil, or_false]
    | cons name participants ih =>
        rw [List.foldl_cons, ih]
        by_cases known : name ∈ unique
        · rw [if_pos known, List.mem_cons]
          constructor
          · exact Or.imp_right .inr
          · rintro (here | rfl | later)
            · exact .inl here
            · exact .inl known
            · exact .inr later
        · rw [if_neg known, List.mem_append, List.mem_singleton, List.mem_cons, or_assoc]
  exact (kept []).trans (by simp only [List.not_mem_nil, false_or])

/-- Whoever enters a room shows the participants it was told of, and itself. -/
theorem mem_shown_joined {roomId : RoomId} {participants : List Nickname} :
    query ∈ shown (onMessage room (.joined roomId nickname participants)) ↔
      query ∈ participants ∨ query = nickname := by
  change query ∈ (uniqueParticipants (withYourself nickname participants)).toFinset ↔ _
  rw [List.mem_toFinset, mem_uniqueParticipants, withYourself]
  by_cases inside : nickname ∈ participants
  · rw [if_pos inside]
    constructor
    · exact .inl
    · rintro (member | rfl)
      · exact member
      · exact inside
  · rw [if_neg inside, List.mem_append, List.mem_singleton]

/-- **An announcement changes what is shown of the participant it tells of**, for a client that
shows somebody. -/
theorem mem_shown_announcement {joined : Bool} (inRoom : (shown room).Nonempty) :
    query ∈ shown (onMessage room (announcement joined nickname)) ↔
      if query = nickname then joined = true else query ∈ shown room := by
  cases room with
  | none => exact absurd inRoom Finset.not_nonempty_empty
  | some room =>
      cases joined with
      | true =>
          change query ∈ (ite (nickname ∈ room.participants) room _).participants.toFinset ↔
            ite _ _ (query ∈ room.participants.toFinset)
          by_cases same : query = nickname
          · subst same
            by_cases known : query ∈ room.participants
            · simp [known]
            · simp [known]
          · by_cases known : nickname ∈ room.participants
            · simp [known, same]
            · simp [known, same]
      | false =>
          change query ∈ (room.participants.filter (· ≠ nickname)).toFinset ↔
            ite _ _ (query ∈ room.participants.toFinset)
          by_cases same : query = nickname
          · simp [same]
          · simp [same]

end Callifornia.Client
