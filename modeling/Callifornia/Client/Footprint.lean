import Callifornia.Client.MediaTasks

/-! # The steps the media tasks consist of -/

namespace Callifornia.Client

open Concurrency Concurrency.Program

/-- The steps of an offer. -/
def Op.Offers : Op → Prop
  | .createOffer | .setLocalDescription _ | .sendSdp _ | .emitError _ => True
  | _ => False

/-- The steps that see to the sender of a slot. -/
def Op.Sends (slot : Slot) : Op → Prop
  | .hasSender other | .replaceTrack other _ | .addTrack other _ => other = slot
  | .emitError _ => True
  | _ => False

/-- The steps that see to the gain node. -/
def Op.Processes : Op → Prop
  | .teardownMicGraph | .newAudioContext | .resumeContext | .connectGain _ => True
  | _ => False

/-- The steps of a screen sharing task. -/
def Op.Shares (generation : ℕ) : Op → Prop
  | .isStale checked => checked = generation
  | .hasSender slot | .replaceTrack slot _ | .addTrack slot _ => slot = .screen
  | .stopAllTracks _ | .swapScreenStream _ | .dropScreenStream | .createOffer
  | .setLocalDescription _ | .sendSdp _ | .emitError _ => True
  | _ => False

theorem Op.Offers.shares {op : Op} {generation : ℕ} (offers : op.Offers) :
    op.Shares generation := by
  cases op <;> trivial

theorem sendLocalOffer_only : sendLocalOffer.Only Op.Offers := by
  refine ⟨trivial, fun offer => ?_⟩
  cases offer with
  | error err => trivial
  | ok sdp =>
      refine ⟨trivial, fun set => ?_⟩
      cases set with
      | error err => trivial
      | ok => exact ⟨trivial, fun _ => trivial⟩

theorem firstOffer_only : firstOffer.Only Op.Offers := by
  refine sendLocalOffer_only.bind fun sent => ?_
  cases sent with
  | ok => trivial
  | error err => exact ⟨trivial, fun _ => trivial⟩

theorem processLocalMediaForSend_only (raw : Stream) (inputLevel : ℕ) :
    (processLocalMediaForSend raw inputLevel).Only Op.Processes := by
  refine ⟨trivial, fun _ => ?_⟩
  change (ite .. : Call Stream).Only _
  split
  · trivial
  · refine ⟨trivial, fun works => ?_⟩
    cases works with
    | false => trivial
    | true =>
        refine ⟨trivial, fun _ => ⟨trivial, fun node => ?_⟩⟩
        cases node <;> trivial

theorem attachTrack_only (track : Track) :
    (attachTrack track).Only (Op.Sends track.kind.slot) := by
  refine ⟨rfl, fun known => ?_⟩
  cases known <;> exact ⟨rfl, fun _ => trivial⟩

theorem muteSender_only (kind : Kind) : (muteSender kind).Only (Op.Sends kind.slot) := by
  refine ⟨rfl, fun known => ?_⟩
  cases known with
  | false => trivial
  | true =>
      refine ⟨rfl, fun replaced => ?_⟩
      cases replaced with
      | ok => trivial
      | error err => exact ⟨trivial, fun _ => trivial⟩

theorem switchTrack_only (kind : Kind) (enabled : Bool) (track : Option Track) :
    (switchTrack kind enabled track).Only (Op.Sends kind.slot) := by
  cases enabled with
  | false => exact (muteSender_only kind).bind fun _ => trivial
  | true =>
      cases track with
      | none => trivial
      | some track =>
          refine ⟨rfl, fun known => ?_⟩
          cases known with
          | false => exact ⟨rfl, fun _ => trivial⟩
          | true =>
              refine ⟨rfl, fun replaced => ?_⟩
              cases replaced with
              | ok => trivial
              | error err => exact ⟨trivial, fun _ => trivial⟩

theorem shareScreen_only (generation : ℕ) (stream : Stream) (needsOffer : Bool) :
    (shareScreen stream needsOffer).Only (Op.Shares generation) := by
  cases needsOffer with
  | false => exact ⟨trivial, fun _ => trivial⟩
  | true =>
      refine (sendLocalOffer_only.mono fun _ => Op.Offers.shares).bind fun sent => ?_
      cases sent with
      | ok => exact ⟨trivial, fun _ => trivial⟩
      | error err => exact ⟨trivial, fun _ => ⟨trivial, fun _ => trivial⟩⟩

theorem publishScreenShare_only (generation : ℕ) (stream : Stream) (track : Track) :
    (publishScreenShare generation stream track).Only (Op.Shares generation) := by
  refine ⟨rfl, fun stale => ?_⟩
  cases stale with
  | true => exact ⟨trivial, fun _ => trivial⟩
  | false =>
      refine ⟨rfl, fun known => ?_⟩
      cases known with
      | true =>
          refine ⟨rfl, fun replaced => ?_⟩
          cases replaced with
          | ok => exact shareScreen_only generation stream false
          | error err => exact ⟨trivial, fun _ => ⟨trivial, fun _ => trivial⟩⟩
      | false =>
          refine ⟨rfl, fun added => ?_⟩
          cases added with
          | true => exact shareScreen_only generation stream true
          | false => exact ⟨trivial, fun _ => ⟨trivial, fun _ => trivial⟩⟩

theorem unshareScreen_only (generation : ℕ) : unshareScreen.Only (Op.Shares generation) := by
  refine ⟨trivial, fun _ =>
    (sendLocalOffer_only.mono fun _ => Op.Offers.shares).bind fun sent => ?_⟩
  cases sent with
  | ok => trivial
  | error err => exact ⟨trivial, fun _ => trivial⟩

theorem stopScreenShare_only (generation : ℕ) :
    (stopScreenShare generation).Only (Op.Shares generation) := by
  refine ⟨rfl, fun stale => ?_⟩
  cases stale with
  | true => trivial
  | false =>
      refine ⟨rfl, fun known => ?_⟩
      cases known with
      | false => exact unshareScreen_only generation
      | true =>
          refine ⟨rfl, fun replaced => ?_⟩
          cases replaced with
          | ok => exact unshareScreen_only generation
          | error err => exact ⟨trivial, fun _ => unshareScreen_only generation⟩

end Callifornia.Client
