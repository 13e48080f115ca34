import Callifornia.Client.Offer
import Callifornia.Concurrency.Program
import Mathlib.Data.Finset.Basic
import Mathlib.Logic.Function.Basic

/-! # The media of a client's room session

The tasks of a session acquire local media, put tracks on the senders of the connection and
send offers. They take turns: each step is a piece of code between two awaits, or the end of
a call to the browser.
-/

namespace Callifornia.Client

open Concurrency Text

inductive Kind
  | audio
  | video
  deriving DecidableEq

structure Track where
  id : ℕ
  kind : Kind
  deriving DecidableEq

abbrev Stream := List Track

/-- The senders of the connection, one for each fixed slot. -/
inductive Slot
  | audio
  | video
  | screen
  deriving DecidableEq

def Kind.slot : Kind → Slot
  | .audio => .audio
  | .video => .video

inductive WebRtcMediaSeverity
  | warning
  | recoverable
  | fatal
  deriving DecidableEq

structure WebRtcMediaError where
  severity : WebRtcMediaSeverity
  stage : String
  message : String
  technical : String
  deriving DecidableEq

/-- What is asked of one kind of media. -/
inductive Constraint
  | none
  | any
  | device (id : Chars)
  deriving DecidableEq

/-- The characters that Unicode calls white space. -/
def isWhitespace (char : Char) : Bool :=
  (9 ≤ char.toNat ∧ char.toNat ≤ 13) ∨ (8192 ≤ char.toNat ∧ char.toNat ≤ 8202) ∨
    char.toNat ∈ [32, 133, 160, 5760, 8232, 8233, 8239, 8287, 12288]

def trim (text : Chars) : Chars :=
  ((text.dropWhile isWhitespace).reverse.dropWhile isWhitespace).reverse

def mediaTrackConstraint (enabled : Bool) (deviceId : Chars) : Constraint :=
  if !enabled then .none
  else if trim deviceId = [] ∨ (trim deviceId).map Char.toLower = "default".toList then .any
  else .device (trim deviceId)

/-- The steps of the tasks. -/
inductive Op
  | isStale (generation : ℕ)
  | getUserMedia (audio video : Constraint)
  | stopAllTracks (stream : Stream)
  | teardownMicGraph
  | newAudioContext
  | resumeContext
  /-- Route the microphone through a gain node; the gain is in hundredths. -/
  | connectGain (gain : ℕ)
  | hasSender (slot : Slot)
  | replaceTrack (slot : Slot) (track : Option Track)
  | addTrack (slot : Slot) (track : Track)
  | createOffer
  | setLocalDescription (sdp : Chars)
  | sendSdp (sdp : Chars)
  | setLocalStream (stream : Stream)
  /-- Stop the tracks of the old stream and store the new one. -/
  | swapLocalStream (stream : Stream)
  | dropLocalStream
  | swapScreenStream (stream : Stream)
  | dropScreenStream
  | emitError (error : WebRtcMediaError)
  | close
  deriving DecidableEq

@[reducible] def Op.Reply : Op → Type
  | .isStale _ | .newAudioContext | .hasSender _ | .addTrack .. => Bool
  | .getUserMedia .. => Except String Stream
  | .connectGain _ => Option Track
  | .replaceTrack .. | .setLocalDescription _ | .sendSdp _ => Except String Unit
  | .createOffer => Except String Chars
  | _ => Unit

/-- A session, and the browser under it. -/
structure WebRtcRoomSession where
  closed : Bool
  mediaGeneration : ℕ
  /-- The senders there are, each with its track. -/
  sender : Slot → Option (Option Track)
  localStream : Option Stream
  screenStream : Option Stream
  /-- The gain of the microphone, if it runs through a gain node. -/
  micGain : Option ℕ
  /-- The offers sent so far. -/
  offers : List Chars
  errors : List WebRtcMediaError
  /-- Whether a call to the browser that ends now succeeds. -/
  willing : Op → Bool
  nextTrack : ℕ
  /-- The tracks `getUserMedia` has returned. -/
  captured : Finset Track
  stopped : Finset Track

namespace WebRtcRoomSession

variable (session : WebRtcRoomSession)

def generationMax : ℕ := UInt64.size - 1

def nextGeneration : ℕ := min (session.mediaGeneration + 1) generationMax

def isStale (generation : ℕ) : Bool := session.closed || session.mediaGeneration ≠ generation

def stopAllTracks (stream : Stream) : WebRtcRoomSession :=
  { session with stopped := session.stopped ∪ stream.toFinset }

/-- Stop the tracks of a stream, if there is one. -/
def stopIfAny (stream : Option Stream) : WebRtcRoomSession :=
  session.stopAllTracks (stream.getD [])

/-- `getUserMedia` has returned a stream. -/
def capture (stream : Stream) : WebRtcRoomSession :=
  { session with
    captured := session.captured ∪ stream.toFinset
    nextTrack := stream.foldl (fun next track => max next (track.id + 1)) session.nextTrack }

/-- A sender has a new track. -/
def carry (slot : Slot) (track : Option Track) : WebRtcRoomSession :=
  { session with sender := Function.update session.sender slot (some track) }

def swapLocalStream (stream : Stream) : WebRtcRoomSession :=
  { session.stopIfAny session.localStream with localStream := some stream }

def dropLocalStream : WebRtcRoomSession :=
  { session.stopIfAny session.localStream with localStream := none }

def swapScreenStream (stream : Stream) : WebRtcRoomSession :=
  { session.stopIfAny session.screenStream with screenStream := some stream }

def dropScreenStream : WebRtcRoomSession :=
  { session.stopIfAny session.screenStream with screenStream := none }

/-- Stop local tracks and close the connection. -/
def close : WebRtcRoomSession :=
  let session := { session with
    closed := true
    mediaGeneration := session.nextGeneration
    micGain := none }
  (session.stopIfAny session.localStream).stopIfAny session.screenStream

end WebRtcRoomSession

/-- What a stream holds that was asked for in this way. -/
def Stream.Answers (stream : Stream) (kind : Kind) (constraint : Constraint) : Prop :=
  (∃ track ∈ stream, track.kind = kind) ↔ constraint ≠ .none

instance (stream : Stream) (kind : Kind) (constraint : Constraint) :
    Decidable (stream.Answers kind constraint) := inferInstanceAs (Decidable (_ ↔ _))

/-- The effect of a step. -/
def exec : (op : Op) → WebRtcRoomSession → op.Reply → WebRtcRoomSession → Prop
  | .isStale generation, session, reply, after =>
      reply = session.isStale generation ∧ after = session
  | .getUserMedia audio video, session, reply, after =>
      reply.isOk = session.willing (.getUserMedia audio video) ∧
        match reply with
        | .ok stream => stream.Answers .audio audio ∧ stream.Answers .video video ∧
            stream.Nodup ∧ (∀ track ∈ stream, session.nextTrack ≤ track.id) ∧
            after = session.capture stream
        | .error _ => after = session
  | .stopAllTracks stream, session, _, after => after = session.stopAllTracks stream
  | .teardownMicGraph, session, _, after => after = { session with micGain := none }
  | .newAudioContext, session, reply, after =>
      reply = session.willing .newAudioContext ∧ after = session
  | .resumeContext, session, _, after => after = session
  | .connectGain gain, session, reply, after =>
      if session.willing (.connectGain gain) then
        reply = some ⟨session.nextTrack, .audio⟩ ∧
          after = { session with micGain := some gain, nextTrack := session.nextTrack + 1 }
      else reply = none ∧ after = session
  | .hasSender slot, session, reply, after =>
      reply = (session.sender slot).isSome ∧ after = session
  | .replaceTrack slot track, session, reply, after =>
      reply.isOk = session.willing (.replaceTrack slot track) ∧
        after = if reply.isOk then session.carry slot track else session
  | .addTrack slot track, session, reply, after =>
      reply = session.willing (.addTrack slot track) ∧
        after = if reply then session.carry slot (some track) else session
  | .createOffer, session, reply, after =>
      reply.isOk = session.willing .createOffer ∧ after = session
  | .setLocalDescription sdp, session, reply, after =>
      reply.isOk = session.willing (.setLocalDescription sdp) ∧ after = session
  | .sendSdp sdp, session, reply, after =>
      reply.isOk = session.willing (.sendSdp sdp) ∧
        after = if reply.isOk then { session with offers := session.offers ++ [sdp] } else session
  | .setLocalStream stream, session, _, after => after = { session with localStream := some stream }
  | .swapLocalStream stream, session, _, after => after = session.swapLocalStream stream
  | .dropLocalStream, session, _, after => after = session.dropLocalStream
  | .swapScreenStream stream, session, _, after => after = session.swapScreenStream stream
  | .dropScreenStream, session, _, after => after = session.dropScreenStream
  | .emitError error, session, _, after =>
      after = { session with errors := session.errors ++ [error] }
  | .close, session, _, after => after = session.close

abbrev Call := Program Op Op.Reply

abbrev issue (op : Op) : Call op.Reply := Program.perform op

/-! ## Parts of the tasks -/

def emitError (severity : WebRtcMediaSeverity) (stage message technical : String) : Call Unit :=
  issue (.emitError { severity, stage, message, technical })

def getUserMedia (micEnabled cameraEnabled : Bool) (micDeviceId cameraDeviceId : Chars) :
    Call (Except String Stream) :=
  if !micEnabled && !cameraEnabled then return .error "no media requested"
  else issue (.getUserMedia (mediaTrackConstraint micEnabled micDeviceId)
    (mediaTrackConstraint cameraEnabled cameraDeviceId))

def firstTrackKind (stream : Stream) (kind : Kind) : Option Track :=
  stream.find? (·.kind = kind)

/-- The gain for an input level, in hundredths. -/
def levelToGain (inputLevel : ℕ) : ℕ := min inputLevel 100

/-- Route the microphone through a gain node. Where that fails, or there is no audio track,
the stream has the same tracks. -/
def processLocalMediaForSend (raw : Stream) (inputLevel : ℕ) : Call Stream := do
  issue .teardownMicGraph
  if (firstTrackKind raw .audio).isNone then return raw
  else if ← issue .newAudioContext then
    issue .resumeContext
    match ← issue (.connectGain (levelToGain inputLevel)) with
    | some track => return track :: raw.filter (·.kind = .video)
    | none => return raw
  else return raw

def sendLocalOffer : Call (Except String Unit) := do
  match ← issue .createOffer with
  | .error err => return .error err
  | .ok offer =>
      let sdp := rewriteOfferMidsForSfu offer
      match ← issue (.setLocalDescription sdp) with
      | .error err => return .error err
      | .ok () => issue (.sendSdp sdp)

/-! ## The first offer -/

structure MediaSettings where
  micEnabled : Bool
  cameraEnabled : Bool
  micDeviceId : Chars := []
  cameraDeviceId : Chars := []
  inputLevel : ℕ := 100
  deriving DecidableEq

/-- Neither the microphone nor the camera is on. -/
def MediaSettings.silent (settings : MediaSettings) : Bool :=
  !settings.micEnabled && !settings.cameraEnabled

/-- Put a track on the sender of its kind; failures are ignored. -/
def attachTrack (track : Track) : Call Unit := do
  if ← issue (.hasSender track.kind.slot) then
    let _ ← issue (.replaceTrack track.kind.slot (some track))
  else
    let _ ← issue (.addTrack track.kind.slot track)

def firstOffer : Call Unit := do
  match ← sendLocalOffer with
  | .ok () => return ()
  | .error err => emitError .fatal "create_offer" "Could not start WebRTC media negotiation." err

/-- The task that `start` spawns. -/
def start (generation : ℕ) (settings : MediaSettings) : Call Unit := do
  if ← issue (.isStale generation) then return ()
  else
    match ← getUserMedia settings.micEnabled settings.cameraEnabled settings.micDeviceId
        settings.cameraDeviceId with
    | .ok stream =>
        if ← issue (.isStale generation) then issue (.stopAllTracks stream)
        else
          let streamForPc ← processLocalMediaForSend stream settings.inputLevel
          streamForPc.forM attachTrack
          issue (.setLocalStream streamForPc)
          firstOffer
    | .error err =>
        emitError .warning "get_user_media"
          "Microphone or camera could not be started. The call will continue without local media."
          err
        firstOffer

/-! ## New settings -/

def Kind.replaceStage : Kind → String
  | .audio => "replace_audio_track"
  | .video => "replace_video_track"

def Kind.switchMessage : Kind → String
  | .audio => "Could not switch microphone on the active WebRTC sender."
  | .video => "Could not switch camera on the active WebRTC sender."

def Kind.muteMessage : Kind → String
  | .audio => "Could not mute microphone on the active WebRTC sender."
  | .video => "Could not turn off camera on the active WebRTC sender."

/-- Take the track of this kind off its sender. -/
def muteSender (kind : Kind) : Call Unit := do
  if ← issue (.hasSender kind.slot) then
    match ← issue (.replaceTrack kind.slot none) with
    | .ok () => return ()
    | .error err => emitError .recoverable kind.replaceStage kind.muteMessage err
  else return ()

/-- Put a track of this kind on its sender, if the kind is enabled, else take it off. The
reply says whether another offer is needed; there is none when the task gives up. -/
def switchTrack (kind : Kind) (enabled : Bool) (track : Option Track) : Call (Option Bool) := do
  if enabled then
    match track with
    | none => return some false
    | some track =>
        if ← issue (.hasSender kind.slot) then
          match ← issue (.replaceTrack kind.slot (some track)) with
          | .ok () => return some false
          | .error err =>
              emitError .recoverable kind.replaceStage kind.switchMessage err
              return none
        else
          let added ← issue (.addTrack kind.slot track)
          return some added
  else
    muteSender kind
    return some false

def muteAll : Call Unit := do
  issue .teardownMicGraph
  muteSender .audio
  muteSender .video
  issue .dropLocalStream

/-- Put the tracks of a stream on the senders and store it. -/
def sendMedia (settings : MediaSettings) (stream : Stream) : Call Unit := do
  let streamForPc ← processLocalMediaForSend stream settings.inputLevel
  match ← switchTrack .audio settings.micEnabled (firstTrackKind streamForPc .audio) with
  | none => issue (.stopAllTracks streamForPc)
  | some audioAdded =>
      match ← switchTrack .video settings.cameraEnabled (firstTrackKind streamForPc .video) with
      | none => issue (.stopAllTracks streamForPc)
      | some videoAdded =>
          if audioAdded || videoAdded then
            match ← sendLocalOffer with
            | .ok () => issue (.swapLocalStream streamForPc)
            | .error err =>
                emitError .fatal "create_offer"
                  "Could not renegotiate WebRTC media after changing devices." err
                issue (.stopAllTracks streamForPc)
          else issue (.swapLocalStream streamForPc)

/-- The task that `apply_local_media` spawns. -/
def applyLocalMedia (generation : ℕ) (settings : MediaSettings) : Call Unit := do
  if ← issue (.isStale generation) then return ()
  else if settings.silent then muteAll
  else
    match ← getUserMedia settings.micEnabled settings.cameraEnabled settings.micDeviceId
        settings.cameraDeviceId with
    | .error err =>
        emitError .recoverable "get_user_media"
          "Could not apply the selected microphone or camera settings." err
    | .ok stream =>
        if ← issue (.isStale generation) then issue (.stopAllTracks stream)
        else sendMedia settings stream

/-! ## Screen sharing -/

/-- The offer after a sender was added, and the new stream. -/
def shareScreen (stream : Stream) (needsOffer : Bool) : Call Unit := do
  if needsOffer then
    match ← sendLocalOffer with
    | .ok () => issue (.swapScreenStream stream)
    | .error err =>
        emitError .fatal "screen_share_offer" "Could not negotiate screen sharing with the SFU." err
        issue (.stopAllTracks stream)
  else issue (.swapScreenStream stream)

/-- The task that `publish_screen_share` spawns for a stream with a video track. -/
def publishScreenShare (generation : ℕ) (stream : Stream) (track : Track) : Call Unit := do
  if ← issue (.isStale generation) then issue (.stopAllTracks stream)
  else if ← issue (.hasSender .screen) then
    match ← issue (.replaceTrack .screen (some track)) with
    | .ok () => shareScreen stream false
    | .error err =>
        emitError .recoverable "screen_share_replace_track"
          "Could not publish screen sharing to the active call." err
        issue (.stopAllTracks stream)
  else if ← issue (.addTrack .screen track) then shareScreen stream true
  else
    emitError .recoverable "screen_share_add_track"
      "Could not add screen sharing to the active call."
      "RTCPeerConnection.addTrack returned no sender"
    issue (.stopAllTracks stream)

/-- The screen stream is dropped, and another offer sent. -/
def unshareScreen : Call Unit := do
  issue .dropScreenStream
  match ← sendLocalOffer with
  | .ok () => return ()
  | .error err =>
      emitError .recoverable "screen_share_stop_offer"
        "Screen sharing stopped locally, but SFU renegotiation failed." err

/-- The task that `stop_screen_share` spawns. -/
def stopScreenShare (generation : ℕ) : Call Unit := do
  if ← issue (.isStale generation) then return ()
  else if ← issue (.hasSender .screen) then
    match ← issue (.replaceTrack .screen none) with
    | .ok () => unshareScreen
    | .error err =>
        emitError .recoverable "screen_share_stop"
          "Could not stop screen sharing on the active call." err
        unshareScreen
  else unshareScreen

end Callifornia.Client
