import Callifornia.Connector.Session
import Callifornia.Signaling.Websocket

/-! # The task of a client connection

A connection's task takes one event at a time: its heartbeat, something its socket received,
or a message queued for its client. A text is decoded and validated before it is handled, and
when the loop ends the task cleans up.
-/

namespace Callifornia.Signaling

open Concurrency Store

/-! ## Validation -/

inductive ValidationError
  | invalidSessionId
  | invalidRoomId
  | invalidToken
  | missingSdp
  | missingCandidate
  | missingSdpMid
  deriving DecidableEq

def ValidationError.text : ValidationError → String
  | .invalidSessionId => "session_id must be a valid UUID"
  | .invalidRoomId => "room_id must be a valid UUID"
  | .invalidToken => "token must not be empty"
  | .missingSdp => "sdp must not be empty"
  | .missingCandidate => "candidate must not be empty"
  | .missingSdpMid => "sdp_mid must not be empty"

def validateToken (token : String) : Except ValidationError Unit :=
  if Connector.trim token = "" then .error .invalidToken else .ok ()

/-- What the messages are decoded and checked with. -/
structure Codec where
  /-- `serde_json::from_str` at `ClientMessage`. -/
  decode : String → Option ClientMessage
  /-- `Uuid::parse_str` accepts the text. -/
  isUuid : String → Bool

variable (codec : Codec)

def validateRoomId (roomId : RoomId) : Except ValidationError Unit :=
  if codec.isUuid roomId then .ok () else .error .invalidRoomId

def validateSessionId (sessionId : SessionId) : Except ValidationError Unit :=
  if codec.isUuid sessionId then .ok () else .error .invalidSessionId

def validateSdp (sdp : String) : Except ValidationError Unit :=
  if Connector.trim sdp = "" then .error .missingSdp else .ok ()

def validateCandidate (candidate sdpMid : String) : Except ValidationError Unit :=
  if Connector.trim candidate = "" then .error .missingCandidate
  else if Connector.trim sdpMid = "" then .error .missingSdpMid
  else .ok ()

def ClientMessage.validate : ClientMessage → Except ValidationError Unit
  | .attach token => validateToken token
  | .logout sessionId _ => validateSessionId codec sessionId
  | .create sessionId => validateSessionId codec sessionId
  | .join sessionId roomId => do
      validateSessionId codec sessionId
      validateRoomId codec roomId
  | .leave sessionId roomId _ => do
      validateSessionId codec sessionId
      validateRoomId codec roomId
  | .sdp sessionId sdpText _ => do
      validateSessionId codec sessionId
      validateSdp sdpText
  | .candidate sessionId candidateText sdpMid => do
      validateSessionId codec sessionId
      validateCandidate candidateText sdpMid

/-! ## The loop -/

/-- A message of the WebSocket protocol. -/
inductive Frame
  | text (text : String)
  | binary
  | ping
  | pong
  | close

/-- What waiting for the socket ends with. -/
inductive Incoming
  /-- The read timeout has passed. -/
  | elapsed
  /-- The stream has ended. -/
  | ended
  | failed
  | frame (frame : Frame)

/-- What the loop of a connection waits for. -/
inductive Event
  /-- The interval of the heartbeat; whether its ping is written in time. -/
  | heartbeat (written : Bool)
  | incoming (incoming : Incoming)
  | outbound (payload : Option ServerMessage)

variable (state : State) (connection : ConnectionId) (jwt : Jwt)

/-- Report an error to the client; whether the connection goes on. -/
def sendError (code : ServerErrorCode) (message : String) : Call Bool :=
  issue (.sendMessage connection (.error code message))

/-- Decode, validate and handle a text; whether the connection goes on. -/
def handleTextFrame (text : String) : Call Bool :=
  match codec.decode text with
  | none => sendError connection .invalidJson "Malformed JSON"
  | some message =>
      match message.validate codec with
      | .error error => sendError connection .invalidPayload error.text
      | .ok () => handleText state connection jwt message

/-- Handle an event; whether the connection goes on. -/
def handleEvent : Event → Call Bool
  | .heartbeat written => return written
  | .incoming .elapsed | .incoming .ended | .incoming .failed => return false
  | .incoming (.frame (.text text)) => handleTextFrame codec state connection jwt text
  | .incoming (.frame .close) => return false
  | .incoming (.frame .pong) | .incoming (.frame .ping) | .incoming (.frame .binary) => return true
  | .outbound (some payload) => issue (.sendMessage connection payload)
  | .outbound none => return false

/-- The task of a connection, given the events that occur. -/
def handleWs : List Event → Call Unit
  | [] => return ()
  | event :: events => do
      if ← handleEvent codec state connection jwt event then handleWs events
      else cleanupConnection state connection

end Callifornia.Signaling
