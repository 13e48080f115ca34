import Callifornia.Connector.Session
import Callifornia.Sfu.Dangling

/-! # Relay ids between an SFU and a client

An SFU names a relay by its publisher, by what is published, and by the mid of the publisher's
track. A client reads the first two from the id, and different tracks have different ids.
-/

namespace Callifornia.RelayIds

open Sfu

def sourceTypeFromMid (mid : String) : String :=
  if mid = "video_camera" then "camera"
  else if mid = "video_screen" then "screen"
  else if mid = "audio_main" then "audio"
  else "unknown"

/-- The id of a publisher's track; part of `onTrack`. -/
def trackIdFromMid (mid : String) : TrackId := sourceTypeFromMid mid ++ ":" ++ mid

inductive RemoteSource
  | camera
  | screen
  deriving DecidableEq

/-- The parts before and after the first separator. -/
def splitOnce (text : String) (separator : Char) : Option (String × String) :=
  (Text.splitOnce separator text.toList).map fun parts => (.ofList parts.1, .ofList parts.2)

def remoteSourceFromRelayTrackId (trackId : String) : Option (String × RemoteSource) :=
  (splitOnce trackId '|').bind fun relay =>
    (splitOnce relay.2 ':').bind fun source =>
      if relay.1 = "" ∨ source.1 = "" then none
      else some (relay.1, if source.1 = "screen" then .screen else .camera)

/-! ## What a name and a source type leave out -/

theorem splitOnce_append {separator : Char} {front back text : String}
    (free : separator ∉ front.toList)
    (same : text.toList = front.toList ++ separator :: back.toList) :
    splitOnce text separator = some (front, back) := by
  rw [splitOnce, same, Text.splitOnce_append free, Option.map_some, String.ofList_toList,
    String.ofList_toList]

section Names

variable {name other : Nickname} {mid otherMid : String}

/-- A character of a name is one of its letters or white space around them. -/
theorem mem_name (valid : Connector.validateNickname name = true) {char : Char}
    (member : char ∈ name.toList) :
    Connector.isWhitespace char = true ∨ char.isAlphanum = true ∨ char = '_' ∨ char = '-' := by
  refine (Text.blank_or_mem_trimBy member).imp_right fun kept => ?_
  simp only [Connector.validateNickname, Bool.and_eq_true, List.all_eq_true, Bool.or_eq_true,
    beq_iff_eq, or_assoc] at valid
  exact valid.2 char (by rwa [Connector.trim, String.toList_ofList])

theorem bar_notMem_name (valid : Connector.validateNickname name = true) : '|' ∉ name.toList := by
  intro member
  exact absurd (mem_name valid member) (by decide)

theorem name_ne_empty (valid : Connector.validateNickname name = true) : name ≠ "" := by
  rintro rfl
  exact Connector.trim_ne_empty valid rfl

theorem colon_notMem_sourceType : ':' ∉ (sourceTypeFromMid mid).toList := by
  unfold sourceTypeFromMid
  split_ifs <;> decide

theorem sourceType_ne_empty : sourceTypeFromMid mid ≠ "" := by
  unfold sourceTypeFromMid
  split_ifs <;> decide

theorem sourceType_eq_screen : sourceTypeFromMid mid = "screen" ↔ mid = "video_screen" := by
  unfold sourceTypeFromMid
  split_ifs with camera screen audio
  · simp [camera]
  · simp [screen]
  · simp [audio]
  · simp [screen]

theorem toList_trackIdFromMid : (trackIdFromMid mid).toList =
    (sourceTypeFromMid mid).toList ++ ':' :: mid.toList := by
  simp [trackIdFromMid, String.toList_append]

/-- The client reads back who publishes, and whether it is a screen. -/
theorem remoteSource_build (valid : Connector.validateNickname name = true) :
    remoteSourceFromRelayTrackId (buildRelayTrackId name (trackIdFromMid mid)) =
      some (name, if mid = "video_screen" then .screen else .camera) := by
  rw [remoteSourceFromRelayTrackId,
    splitOnce_append (bar_notMem_name valid) (toList_buildRelayTrackId _ _), Option.bind_some,
    splitOnce_append colon_notMem_sourceType toList_trackIdFromMid, Option.bind_some,
    if_neg (not_or.mpr ⟨name_ne_empty valid, sourceType_ne_empty⟩)]
  simp only [sourceType_eq_screen]

theorem trackIdFromMid_injective (same : trackIdFromMid mid = trackIdFromMid otherMid) :
    mid = otherMid := by
  have lists := congrArg String.toList same
  rw [toList_trackIdFromMid, toList_trackIdFromMid] at lists
  exact String.toList_inj.mp
    (Text.append_separator_inj colon_notMem_sourceType colon_notMem_sourceType lists).2

/-- **Relay ids round trip**, and no two tracks share one. -/
theorem relayId_roundTrip (valid : Connector.validateNickname name = true)
    (valid' : Connector.validateNickname other = true) :
    remoteSourceFromRelayTrackId (buildRelayTrackId name (trackIdFromMid mid)) =
        some (name, if mid = "video_screen" then .screen else .camera) ∧
      (buildRelayTrackId name (trackIdFromMid mid) =
        buildRelayTrackId other (trackIdFromMid otherMid) ↔ name = other ∧ mid = otherMid) := by
  refine ⟨remoteSource_build valid, fun same => ?_, ?_⟩
  · obtain rfl := publisher_eq (bar_notMem_name valid) (bar_notMem_name valid') same
    exact ⟨rfl, trackIdFromMid_injective (buildRelayTrackId_injective same)⟩
  · rintro ⟨rfl, rfl⟩
    rfl

end Names

/-- A mid with both separators in it. -/
theorem relayId_roundTrip_separators :
    remoteSourceFromRelayTrackId (buildRelayTrackId "al-ice" (trackIdFromMid "a|b:c")) =
        some ("al-ice", .camera) ∧
      (buildRelayTrackId "al-ice" (trackIdFromMid "a|b:c") =
        buildRelayTrackId " al-ice" (trackIdFromMid "b:c") ↔
          "al-ice" = " al-ice" ∧ "a|b:c" = "b:c") := by
  have valid : Connector.validateNickname "al-ice" = true := by
    unfold Connector.validateNickname
    decide
  have valid' : Connector.validateNickname " al-ice" = true := by
    unfold Connector.validateNickname
    decide
  exact relayId_roundTrip valid valid'

end Callifornia.RelayIds
