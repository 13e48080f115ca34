import Callifornia.Text.Lines

/-! # The fixed slots of an offer

An SFU takes an offer only if its mids name an audio slot and a video slot, and no more
than two video slots.
-/

namespace Callifornia.Sfu

open Text

/-- What has been seen of an offer. -/
structure Slots where
  videoCount : ℕ := 0
  hasAudioSlot : Bool := false
  hasCameraSlot : Bool := false
  hasScreenSlot : Bool := false
  deriving DecidableEq

/-- The mid of a line that matches `^a=mid:(.+)$`, whatever the case of its letters. -/
def matchMid (line : Chars) : Option Chars :=
  if (line.take 6).map Char.toLower = "a=mid:".toList ∧ line.drop 6 ≠ [] ∧
      '\r' ∉ line.drop 6 ∧ '\n' ∉ line.drop 6 then some (line.drop 6)
  else none

/-- Note a mid. -/
def Slots.note (slots : Slots) (mid : Chars) : Slots :=
  if mid = "audio_main".toList then { slots with hasAudioSlot := true }
  else if mid = "video_camera".toList then
    { slots with hasCameraSlot := true, videoCount := slots.videoCount + 1 }
  else if mid = "video_screen".toList then
    { slots with hasScreenSlot := true, videoCount := slots.videoCount + 1 }
  else slots

/-- Read one line. -/
def Slots.scan (slots : Slots) (line : Chars) : Slots :=
  match matchMid line with
  | none => slots
  | some mid => slots.note mid

/-- Whether the slots will do, and what is wrong with them. -/
def Slots.check (slots : Slots) : Except String Unit :=
  if !slots.hasAudioSlot then .error "offer is missing required fixed slot a=mid:audio_main"
  else if !slots.hasCameraSlot && !slots.hasScreenSlot then
    .error "offer must include at least one video fixed slot (video_camera or video_screen)"
  else if slots.videoCount > 2 then
    .error "offer exceeds fixed slot policy: max two video mids"
  else .ok ()

def validateFixedSlotsOffer (sdp : Chars) : Except String Unit :=
  (((rawLines sdp).map trimReturn).foldl Slots.scan {}).check

end Callifornia.Sfu
