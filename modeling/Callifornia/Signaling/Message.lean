import Callifornia.Store.Redis

/-! # Messages of the signaling WebSocket API -/

namespace Callifornia.Signaling

/-- Wire codes of `ServerMessage.error`. -/
inductive ServerErrorCode
  | invalidJson
  | invalidPayload
  | unauthorized
  | sessionConflict
  | alreadyAuthorized
  | leaveRoomMismatch
  | roomNotFound
  | nicknameTaken
  | alreadyInRoom
  | notInRoom
  | sfuCapacityExhausted
  | sfuUnavailable
  | sfuRejected
  | invalidRoomAssignment
  | storageUnavailable
  | writeFailed
  deriving DecidableEq

/-- What a client asks of its signaling node. -/
inductive ClientMessage
  | attach (token : String)
  | logout (sessionId : SessionId) (participants : Option (List String))
  | sdp (sessionId : SessionId) (sdp sdpType : String)
  | candidate (sessionId : SessionId) (candidate sdpMid : String)
  | create (sessionId : SessionId)
  | join (sessionId : SessionId) (roomId : RoomId)
  | leave (sessionId : SessionId) (roomId : RoomId) (participants : Option (List String))
  deriving DecidableEq

/-- What a signaling node tells a client. -/
inductive ServerMessage
  | attached (nickname : Nickname) (sessionId : SessionId)
  | loggedOut (nickname : Nickname)
  | sdp (source sdp sdpType : String)
  | candidate (source candidate sdpMid : String)
  | created (roomId : RoomId) (yourNickname : Nickname)
  | joined (roomId : RoomId) (yourNickname : Nickname) (participants : List Nickname)
  | roomClosed (roomId : RoomId) (reason : String)
  | left (roomId : RoomId)
  | participantJoined (nickname : Nickname)
  | participantLeft (nickname : Nickname)
  | error (code : ServerErrorCode) (message : String)
  | serviceUnavailable (dependency : String) (retryAfterMs : ℕ)
  deriving DecidableEq

end Callifornia.Signaling
