import Callifornia.Client.Session
import Callifornia.Concurrency.Replay

/-! # The tasks of a session together

A session starts with the task of its first offer. Calls of `apply_local_media`,
`publish_screen_share`, `stop_screen_share` and `close` may come at any time; each of the
first three bumps the generation and spawns a task.
-/

namespace Callifornia.Client

open Concurrency Concurrency.System

/-- What a task is for. -/
inductive Task
  | start (settings : MediaSettings)
  | apply (settings : MediaSettings)
  | publish (stream : Stream) (track : Track)
  | stop
  | close
  deriving DecidableEq

def Task.program (generation : ℕ) : Task → Call Unit
  | .start settings => Client.start generation settings
  | .apply settings => applyLocalMedia generation settings
  | .publish stream track => publishScreenShare generation stream track
  | .stop => stopScreenShare generation
  | .close => issue .close

/-- How far a task has got. -/
structure Phase where
  task : Task
  /-- The number of the call that spawned it. -/
  call : ℕ
  generation : ℕ
  /-- It has found that the generation has moved. -/
  stale : Bool := false
  /-- The stream it has acquired. -/
  acquired : Option Stream := none
  /-- It has made its last check, and has media left to put on the senders or to store. -/
  decided : Bool := false
  /-- Whether each sender carries a track since the task has seen to it. -/
  switched : Slot → Option Bool := fun _ => none
  /-- The local stream since the task has seen to it. -/
  stored : Option (Option Stream) := none
  /-- The tracks in its hands. -/
  owed : Stream := []
  /-- It has sent an offer. -/
  offered : Bool := false

namespace Phase

/-- The next check of the generation is the last. -/
def LastCheck (phase : Phase) : Prop :=
  match phase.task with
  | .start _ => phase.acquired.isSome = true
  | .apply settings => settings.silent = true ∨ phase.acquired.isSome = true
  | _ => False

instance (phase : Phase) : Decidable phase.LastCheck := by
  unfold LastCheck
  split <;> infer_instance

def checked (phase : Phase) (stale : Bool) : Phase :=
  if stale then { phase with stale := true }
  else { phase with decided := phase.decided || decide phase.LastCheck }

def acquires (phase : Phase) (stream : Stream) : Phase :=
  { phase with acquired := some stream, owed := phase.owed ++ stream }

/-- The tracks of a stream are out of the task's hands. -/
def settles (phase : Phase) (stream : Stream) : Phase :=
  { phase with owed := phase.owed.filter (· ∉ stream) }

def switches (phase : Phase) (slot : Slot) (carries : Bool) : Phase :=
  { phase with switched := Function.update phase.switched slot (some carries) }

def stores (phase : Phase) (stream : Option Stream) : Phase :=
  { phase with stored := some stream }

/-- The first task has stored its stream, and has only an offer left to send. -/
def rests (phase : Phase) : Phase :=
  { phase with decided := false, switched := fun _ => none, stored := none }

def advance (phase : Phase) : (op : Op) → op.Reply → Phase
  | .isStale _, stale => phase.checked stale
  | .getUserMedia .., .ok stream => phase.acquires stream
  | .stopAllTracks stream, _ => phase.settles stream
  | .hasSender slot, false => phase.switches slot false
  | .replaceTrack slot track, .ok _ => phase.switches slot track.isSome
  | .addTrack slot _, true => phase.switches slot true
  | .sendSdp _, .ok _ => { phase with offered := true }
  | .setLocalStream stream, _ => (phase.settles stream).rests
  | .swapLocalStream stream, _ => (phase.settles stream).stores (some stream)
  | .dropLocalStream, _ => phase.stores none
  | _, _ => phase

end Phase

/-- A call of `apply_local_media`. -/
structure Application where
  call : ℕ
  settings : MediaSettings
  deriving DecidableEq

/-- The calls so far. -/
structure Calls where
  /-- The number of calls. -/
  made : ℕ := 1
  latest : Option Application := none
  /-- The streams that finished tasks have acquired. -/
  acquired : ℕ → Option Stream := fun _ => none

/-- A task is spawned. -/
def Calls.spawn (calls : Calls) (task : Task) : Calls :=
  { calls with
    made := calls.made + 1
    latest := match task with
      | .apply settings => some ⟨calls.made, settings⟩
      | _ => calls.latest }

/-- The tasks of one session. -/
def mediaTasks : System Op Op.Reply where
  State := WebRtcRoomSession × Calls
  Phase := Phase
  Result := Unit
  exec op before reply after := exec op before.1 reply after.1 ∧ after.2 = before.2
  advance := Phase.advance
  start before _ phase program after := ∃ task : Task,
    (∀ settings, task ≠ .start settings) ∧
      (∀ stream track, task = .publish stream track → firstTrackKind stream .video = some track) ∧
      phase = { task, call := before.2.made, generation := before.1.nextGeneration } ∧
      program = task.program before.1.nextGeneration ∧
      after = (if task = .close then before.1
        else { before.1 with mediaGeneration := before.1.nextGeneration }, before.2.spawn task)
  finish state phase _ :=
    (state.1, { state.2 with
      acquired := Function.update state.2.acquired phase.call phase.acquired })
  discard _ _ := False
  environment before _ after := ∃ willing, after = ({ before.1 with willing }, before.2)

/-- A session that has just been started, with the senders that the connection has created. -/
def WebRtcRoomSession.started (sender : Slot → Option (Option Track)) (willing : Op → Bool) :
    WebRtcRoomSession :=
  { closed := false, mediaGeneration := 1, sender, localStream := none, screenStream := none,
    micGain := none, offers := [], errors := [], willing, nextTrack := 0, captured := ∅,
    stopped := ∅ }

/-- A session that has just been started, with the task that it has spawned. -/
def startedPool (settings : MediaSettings) (sender : Slot → Option (Option Track))
    (willing : Op → Bool) : mediaTasks.Pool :=
  ⟨(.started sender willing, {}), [⟨{ task := .start settings, call := 0, generation := 1 },
    start 1 settings⟩]⟩

/-! ## Following a schedule -/

instance (task : Task) : Decidable (∃ settings, task = .start settings) :=
  match task with
  | .start settings => .isTrue ⟨settings, rfl⟩
  | .apply _ | .publish .. | .stop | .close => .isFalse nofun

/-- One outcome of each step; the hint is the stream that `getUserMedia` returns. -/
def sample (hint : Stream) : (op : Op) → WebRtcRoomSession →
    Option (op.Reply × WebRtcRoomSession)
  | .isStale generation, session => some (session.isStale generation, session)
  | .getUserMedia audio video, session =>
      if session.willing (.getUserMedia audio video) = false then some (.error "", session)
      else if hint.Answers .audio audio ∧ hint.Answers .video video ∧ hint.Nodup ∧
          ∀ track ∈ hint, session.nextTrack ≤ track.id then
        some (.ok hint, session.capture hint)
      else none
  | .stopAllTracks stream, session => some ((), session.stopAllTracks stream)
  | .teardownMicGraph, session => some ((), { session with micGain := none })
  | .newAudioContext, session => some (session.willing .newAudioContext, session)
  | .resumeContext, session => some ((), session)
  | .connectGain gain, session =>
      if session.willing (.connectGain gain) then
        some (some ⟨session.nextTrack, .audio⟩,
          { session with micGain := some gain, nextTrack := session.nextTrack + 1 })
      else some (none, session)
  | .hasSender slot, session => some ((session.sender slot).isSome, session)
  | .replaceTrack slot track, session =>
      if session.willing (.replaceTrack slot track) then some (.ok (), session.carry slot track)
      else some (.error "", session)
  | .addTrack slot track, session =>
      if session.willing (.addTrack slot track) then some (true, session.carry slot (some track))
      else some (false, session)
  | .createOffer, session =>
      if session.willing .createOffer then some (.ok [], session) else some (.error "", session)
  | .setLocalDescription sdp, session =>
      if session.willing (.setLocalDescription sdp) then some (.ok (), session)
      else some (.error "", session)
  | .sendSdp sdp, session =>
      if session.willing (.sendSdp sdp) then
        some (.ok (), { session with offers := session.offers ++ [sdp] })
      else some (.error "", session)
  | .setLocalStream stream, session => some ((), { session with localStream := some stream })
  | .swapLocalStream stream, session => some ((), session.swapLocalStream stream)
  | .dropLocalStream, session => some ((), session.dropLocalStream)
  | .swapScreenStream stream, session => some ((), session.swapScreenStream stream)
  | .dropScreenStream, session => some ((), session.dropScreenStream)
  | .emitError error, session => some ((), { session with errors := session.errors ++ [error] })
  | .close, session => some ((), session.close)

theorem sample_sound {hint : Stream} {op : Op} {session after : WebRtcRoomSession}
    {reply : op.Reply} (sampled : sample hint op session = some (reply, after)) :
    exec op session reply after := by
  cases op with
  | getUserMedia audio video =>
      simp only [sample] at sampled
      split at sampled
      · rename_i refused
        cases sampled
        exact ⟨refused.symm, rfl⟩
      · rename_i willing
        split at sampled
        · rename_i fits
          cases sampled
          exact ⟨(Bool.eq_true_of_not_eq_false willing).symm, fits.1, fits.2.1, fits.2.2.1,
            fits.2.2.2, rfl⟩
        · cases sampled
  | connectGain gain =>
      simp only [sample] at sampled
      change if session.willing (.connectGain gain) = true then _ else _
      split at sampled
      · rename_i willing
        cases sampled
        rw [if_pos willing]
        exact ⟨rfl, rfl⟩
      · rename_i refused
        cases sampled
        rw [if_neg refused]
        exact ⟨rfl, rfl⟩
  | _ =>
      first
        | cases sampled; rfl
        | cases sampled; exact ⟨rfl, rfl⟩
        | simp only [sample] at sampled
          split at sampled
          · rename_i willing
            cases sampled
            exact ⟨willing.symm, rfl⟩
          · rename_i refused
            cases sampled
            exact ⟨(Bool.eq_false_of_not_eq_true refused).symm, rfl⟩

/-- One outcome of each step. -/
def mediaSampler : mediaTasks.Sampler Stream where
  sample hint op state := (sample hint op state.1).map fun outcome =>
    (outcome.1, outcome.2, state.2)
  sound := by
    intro hint op state reply after sampled
    obtain ⟨⟨answer, session⟩, found, same⟩ := Option.map_eq_some_iff.mp sampled
    cases same
    exact ⟨sample_sound found, rfl⟩

/-- Another call is made. -/
def spawn (task : Task) (pool : mediaTasks.Pool) : mediaTasks.Pool :=
  ⟨(if task = .close then pool.state.1
      else { pool.state.1 with mediaGeneration := pool.state.1.nextGeneration },
      pool.state.2.spawn task),
    ⟨{ task, call := pool.state.2.made, generation := pool.state.1.nextGeneration },
      task.program pool.state.1.nextGeneration⟩ :: pool.threads⟩

theorem spawn_step {guard : mediaTasks.Guard} (pool : mediaTasks.Pool) {task : Task}
    (other : ∀ settings, task ≠ .start settings)
    (video : ∀ stream track, task = .publish stream track →
      firstTrackKind stream .video = some track) : Step guard pool (spawn task pool) :=
  .start ⟨task, other, video, rfl, rfl, rfl⟩

theorem apply_step {guard : mediaTasks.Guard} (pool : mediaTasks.Pool)
    (settings : MediaSettings) : Step guard pool (spawn (.apply settings) pool) :=
  spawn_step pool (by rintro _ ⟨⟩) (by rintro _ _ ⟨⟩)

theorem close_step {guard : mediaTasks.Guard} (pool : mediaTasks.Pool) :
    Step guard pool (spawn .close pool) :=
  spawn_step pool (by rintro _ ⟨⟩) (by rintro _ _ ⟨⟩)

/-- A session closes between two schedules. -/
theorem exists_of_replay_close {guard : mediaTasks.Guard}
    [∀ state phase op others, Decidable (guard state phase op others)]
    {first second : List (ℕ × Stream)} {pool : mediaTasks.Pool} {test : mediaTasks.Pool → Bool}
    (passes : (((mediaSampler.replay guard first pool).map (spawn .close)).bind
      (mediaSampler.replay guard second)).any test = true) :
    ∃ pool', Reaches guard pool pool' ∧ test pool' = true := by
  refine Sampler.exists_of_replay_launch (fun pool pool' closed => ?_)
    (Option.map_eq_bind ▸ passes)
  cases closed
  exact close_step pool

/-- The connection has created its three senders. -/
def threeSenders : Slot → Option (Option Track) := fun _ => some none

/-- The microphone is on. -/
def micOn : MediaSettings := { micEnabled := true, cameraEnabled := false }

def allOff : MediaSettings := { micEnabled := false, cameraEnabled := false }

/-- The captured microphone. -/
def microphone : Track := ⟨0, .audio⟩

end Callifornia.Client
