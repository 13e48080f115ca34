import Callifornia.Client.Footprint

/-! # The latest settings

A call of `apply_local_media` decides at its last check that it is the latest, and puts its
media on the senders in several further steps. While it does, no other task may.
-/

namespace Callifornia.Client

open Concurrency Concurrency.System

namespace WebRtcRoomSession

/-- The sender carries a track. -/
def Carries (session : WebRtcRoomSession) (slot : Slot) : Prop :=
  ∃ track, session.sender slot = some (some track)

end WebRtcRoomSession

/-- The stream is made of a captured one: its microphone may run through a gain node. -/
def Stems (raw stream : Stream) : Prop :=
  stream = raw ∨ (∃ track ∈ raw, track.kind = .audio) ∧ ∃ gain : Track, gain.kind = .audio ∧
    stream = gain :: raw.filter (·.kind = .video)

/-- The settings are in force. -/
structure Applied (state : WebRtcRoomSession × Calls) (application : Application) : Prop where
  audio : state.1.Carries .audio ↔ application.settings.micEnabled = true
  video : state.1.Carries .video ↔ application.settings.cameraEnabled = true
  silent : application.settings.silent = true → state.1.localStream = none
  stored : application.settings.silent = false → ∃ raw stream,
    state.2.acquired application.call = some raw ∧ state.1.localStream = some stream ∧
      Stems raw stream

/-- When a task decides, no other has media left to put on the senders or to store; the
latest call does not find itself stale; and the calls to the browser succeed, but for those
of the first task and for Web Audio. -/
def Ordered : mediaTasks.Guard :=
  fun (state : WebRtcRoomSession × Calls) (phase : Phase) op (others : Multiset Phase) =>
    match op with
    | .isStale generation =>
        state.1.mediaGeneration < WebRtcRoomSession.generationMax ∧
          if state.1.isStale generation = true then
            ∀ latest ∈ state.2.latest, latest.call ≠ phase.call
          else phase.LastCheck → ∀ other ∈ others, Phase.decided other = false
    | .close => False
    | .newAudioContext | .connectGain _ => True
    | op => (∃ settings, phase.task = .start settings) ∨ state.1.willing op = true

/-- The task puts captured media on the senders. -/
def Task.Captures : Task → Prop
  | .start _ | .apply _ => True
  | _ => False

/-- What the task has seen to of the senders and the stored stream is so. -/
structure Phase.Knows (phase : Phase) (session : WebRtcRoomSession) : Prop where
  senders : ∀ (kind : Kind) carries, phase.switched kind.slot = some carries →
    (session.Carries kind.slot ↔ carries = true)
  stream : ∀ stream, phase.stored = some stream → session.localStream = stream

/-- The task has seen to nothing before it decides. -/
def Phase.Truthful (phase : Phase) (session : WebRtcRoomSession) : Prop :=
  if phase.decided = true then phase.Knows session
  else (∀ kind : Kind, phase.switched kind.slot = none) ∧ phase.stored = none

/-- One task at most has decided; the latest call is under way, or its settings are in
force. -/
structure Governed (state : WebRtcRoomSession × Calls) (phases : Multiset Phase) : Prop where
  opened : state.1.closed = false
  limited : state.1.mediaGeneration ≤ WebRtcRoomSession.generationMax
  bounded : ∀ phase ∈ phases, phase.task.Captures → phase.generation ≤ state.1.mediaGeneration
  numbered : ∀ phase ∈ phases, phase.call < state.2.made
  made : ∀ latest ∈ state.2.latest, latest.call < state.2.made
  own : ∀ phase ∈ phases, ∀ latest ∈ state.2.latest, phase.call = latest.call →
    phase.task = .apply latest.settings
  newest : state.1.mediaGeneration < WebRtcRoomSession.generationMax →
    ∀ phase ∈ phases, phase.task.Captures → phase.generation = state.1.mediaGeneration →
      ∀ latest ∈ state.2.latest, phase.call = latest.call
  exclusive : phases.countP (·.decided = true) ≤ 1
  stale : ∀ phase ∈ phases, phase.stale = true →
    ∀ latest ∈ state.2.latest, latest.call ≠ phase.call
  truthful : ∀ phase ∈ phases, phase.Truthful state.1
  settled : ∀ latest ∈ state.2.latest, (∃ phase ∈ phases, phase.call = latest.call) ∨
    Applied state latest ∧ ∀ phase ∈ phases, phase.decided = false

/-- The outline of the settings. -/
def governing : Outline mediaTasks where
  guard := Ordered
  inv := Governed
  asserts _ _ _ := True

section

variable {state after : WebRtcRoomSession × Calls} {phase phase' : Phase}
  {phases others : Multiset Phase} {settings : MediaSettings}

/-- The senders and the stored stream are as they were. -/
def SameMedia (session session' : WebRtcRoomSession) : Prop :=
  (∀ kind : Kind, session'.Carries kind.slot ↔ session.Carries kind.slot) ∧
    session'.localStream = session.localStream

/-- Who has decided and is right knows what the session has. -/
theorem Phase.Truthful.knows {session : WebRtcRoomSession} (truthful : phase.Truthful session)
    (decided : phase.decided = true) : phase.Knows session :=
  (if_pos decided).mp truthful

/-- Who knows what the session has may rely on it. -/
theorem Phase.Knows.truthful {session : WebRtcRoomSession} (knows : phase.Knows session)
    (decided : phase.decided = true) : phase.Truthful session :=
  (if_pos decided).mpr knows

/-- Who has decided nothing relies on nothing. -/
theorem Phase.Truthful.undecided {session session' : WebRtcRoomSession}
    (truthful : phase.Truthful session) (undecided : phase.decided = false) :
    phase.Truthful session' := by
  have undecided : ¬ phase.decided = true := Bool.eq_false_iff.mp undecided
  exact (if_neg undecided).mpr ((if_neg undecided).mp truthful)

/-- What a task knows that learns nothing. -/
theorem Phase.Truthful.still {session session' : WebRtcRoomSession}
    (truthful : phase.Truthful session) (same : SameMedia session session')
    (decided : phase.decided = true → phase'.decided = true)
    (switched : ∀ kind : Kind, phase'.switched kind.slot = phase.switched kind.slot)
    (stored : phase'.stored = phase.stored) : phase'.Truthful session' := by
  by_cases before : phase.decided = true
  · obtain ⟨senders, stream⟩ := truthful.knows before
    refine Phase.Knows.truthful ⟨fun kind carries known => ?_, fun kept known => ?_⟩
      (decided before)
    · exact (same.1 kind).trans (senders kind carries (switched kind ▸ known))
    · exact same.2.trans (stream kept (stored ▸ known))
  · obtain ⟨none, empty⟩ := (if_neg before).mp truthful
    have none (kind : Kind) := (switched kind).trans (none kind)
    have empty := stored.trans empty
    by_cases now : phase'.decided = true
    · refine Phase.Knows.truthful ⟨fun kind carries known => ?_, fun stream known => ?_⟩ now
      · cases (none kind).symm.trans known
      · cases empty.symm.trans known
    · exact (if_neg now).mpr ⟨none, empty⟩

/-- What was applied stays applied while the media stay the same. -/
theorem Applied.congr {latest : Application} (applied : Applied state latest)
    (same : SameMedia state.1 after.1)
    (acquired : after.2.acquired latest.call = state.2.acquired latest.call) :
    Applied after latest := by
  obtain ⟨audio, video, silent, stored⟩ := applied
  refine ⟨(same.1 .audio).trans audio, (same.1 .video).trans video,
    fun off => same.2.trans (silent off), fun on => ?_⟩
  rw [acquired, same.2]
  exact stored on

/-- At most one task has decided. -/
theorem Governed.others_undecided (governed : Governed state (phase ::ₘ others))
    (decided : phase.decided = true) : ∀ other ∈ others, other.decided = false := by
  have one := governed.exclusive
  rw [Multiset.countP_cons_of_pos (p := fun phase : Phase => phase.decided = true) _ decided] at one
  have none := Multiset.countP_eq_zero.mp (Nat.le_zero.mp (Nat.le_of_succ_le_succ one))
  exact fun other member => Bool.eq_false_iff.mpr (none other member)

/-- A step of this phase decides nothing, or decides alone. -/
theorem Governed.exclusive_turn (governed : Governed state (phase ::ₘ others))
    (decided : phase'.decided = true → phase.decided = true ∨
      ∀ other ∈ others, other.decided = false) :
    (phase' ::ₘ others).countP (·.decided = true) ≤ 1 := by
  by_cases now : phase'.decided = true
  · rw [Multiset.countP_cons_of_pos (p := fun phase : Phase => phase.decided = true) _ now]
    have none : ∀ other ∈ others, other.decided = false := by
      rcases decided now with before | alone
      · exact governed.others_undecided before
      · exact alone
    rw [Multiset.countP_eq_zero.mpr fun other member => Bool.eq_false_iff.mp (none other member)]
  · rw [Multiset.countP_cons_of_neg (p := fun phase : Phase => phase.decided = true) _ now]
    exact (Multiset.countP_le_of_le _ (Multiset.le_cons_self _ _)).trans governed.exclusive

/-- The latest call is still under way after a step of this phase, or its settings are still in
force. -/
theorem Governed.settled_turn (governed : Governed state (phase ::ₘ others))
    (calls : after.2 = state.2) (call : phase'.call = phase.call)
    (decided : phase'.decided = true → phase.decided = true ∨
      (∀ other ∈ others, other.decided = false) ∧
        ∀ latest ∈ state.2.latest, phase.call = latest.call)
    (media : phase.decided = true ∨ SameMedia state.1 after.1) :
    ∀ latest ∈ state.2.latest, (∃ listed ∈ phase' ::ₘ others, listed.call = latest.call) ∨
      Applied after latest ∧ ∀ listed ∈ phase' ::ₘ others, listed.decided = false := by
  intro latest member
  rcases governed.settled latest member with ⟨other, listed, called⟩ | ⟨applied, none⟩
  · left
    rcases Multiset.mem_cons.mp listed with rfl | later
    · exact ⟨phase', Multiset.mem_cons_self _ _, call.trans called⟩
    · exact ⟨other, Multiset.mem_cons_of_mem later, called⟩
  · have before := none phase (Multiset.mem_cons_self _ _)
    by_cases now : phase'.decided = true
    · rcases decided now with decided | ⟨-, own⟩
      · cases before.symm.trans decided
      · exact .inl ⟨phase', Multiset.mem_cons_self _ _, call.trans (own latest member)⟩
    · right
      have same := media.resolve_left (Bool.eq_false_iff.mp before)
      refine ⟨applied.congr same (by rw [calls]), fun other listed => ?_⟩
      rcases Multiset.mem_cons.mp listed with rfl | later
      · exact Bool.eq_false_iff.mpr now
      · exact none other (Multiset.mem_cons_of_mem later)

/-- A step of this phase. -/
theorem Governed.turn (governed : Governed state (phase ::ₘ others)) (calls : after.2 = state.2)
    (opened : after.1.closed = state.1.closed)
    (generation : after.1.mediaGeneration = state.1.mediaGeneration)
    (same : phase'.task = phase.task ∧ phase'.call = phase.call ∧
      phase'.generation = phase.generation)
    (stale : phase'.stale = true → phase.stale = true ∨
      ∀ latest ∈ state.2.latest, latest.call ≠ phase.call)
    (decided : phase'.decided = true → phase.decided = true ∨
      (∀ other ∈ others, other.decided = false) ∧
        ∀ latest ∈ state.2.latest, phase.call = latest.call)
    (truthful : phase'.Truthful after.1)
    (media : phase.decided = true ∨ SameMedia state.1 after.1) :
    Governed after (phase' ::ₘ others) := by
  obtain ⟨task, call, own_generation⟩ := same
  have old {p : Phase → Prop} (all : ∀ other ∈ phase ::ₘ others, p other)
    (mine : p phase → p phase') :
      ∀ other ∈ phase' ::ₘ others, p other := by
    intro other member
    rcases Multiset.mem_cons.mp member with rfl | later
    · exact mine (all phase (Multiset.mem_cons_self _ _))
    · exact all other (Multiset.mem_cons_of_mem later)
  refine ⟨opened.trans governed.opened, generation.symm ▸ governed.limited, ?_, ?_,
    calls ▸ governed.made, ?_, ?_, ?_, ?_, ?_, ?_⟩
  · rw [generation]
    refine old governed.bounded fun mine => ?_
    rwa [task, own_generation]
  · rw [calls]
    refine old governed.numbered fun mine => ?_
    rwa [call]
  · rw [calls]
    refine old governed.own fun mine => ?_
    rwa [task, call]
  · rw [generation, calls]
    refine fun few => old (governed.newest few) fun mine => ?_
    rwa [task, call, own_generation]
  · exact governed.exclusive_turn fun now => (decided now).imp_right And.left
  · rw [calls]
    refine old governed.stale fun mine given latest member => ?_
    rw [call]
    rcases stale given with before | never
    · exact mine before latest member
    · exact never latest member
  · intro other member
    rcases Multiset.mem_cons.mp member with rfl | later
    · exact truthful
    · have known := governed.truthful other (Multiset.mem_cons_of_mem later)
      rcases media with now | same
      · exact known.undecided (governed.others_undecided now other later)
      · exact known.still same id (fun _ => rfl) rfl
  · rw [calls]
    exact governed.settled_turn calls call decided media

/-- The step sees to a sender, or to the stored stream. -/
def Op.Media : Op → Prop
  | .hasSender slot | .replaceTrack slot _ | .addTrack slot _ => slot ≠ .screen
  | .setLocalStream _ | .swapLocalStream _ | .dropLocalStream => True
  | _ => False

/-- A step changes neither the task of a phase nor its call. -/
theorem advance_same (phase : Phase) (op : Op) (reply : op.Reply) :
    (phase.advance op reply).task = phase.task ∧ (phase.advance op reply).call = phase.call ∧
      (phase.advance op reply).generation = phase.generation := by
  cases op with
  | isStale generation => cases reply <;> exact ⟨rfl, rfl, rfl⟩
  | getUserMedia audio video => cases reply <;> exact ⟨rfl, rfl, rfl⟩
  | hasSender slot => cases reply <;> exact ⟨rfl, rfl, rfl⟩
  | replaceTrack slot track => cases reply <;> exact ⟨rfl, rfl, rfl⟩
  | addTrack slot track => cases reply <;> exact ⟨rfl, rfl, rfl⟩
  | sendSdp sdp => cases reply <;> exact ⟨rfl, rfl, rfl⟩
  | _ => exact ⟨rfl, rfl, rfl⟩

/-- Only a check finds the task stale. -/
theorem advance_stale (phase : Phase) {op : Op} (other : ∀ generation, op ≠ .isStale generation)
    (reply : op.Reply) : (phase.advance op reply).stale = phase.stale := by
  cases op with
  | isStale generation => exact absurd rfl (other generation)
  | getUserMedia audio video => cases reply <;> rfl
  | hasSender slot => cases reply <;> rfl
  | replaceTrack slot track => cases reply <;> rfl
  | addTrack slot track => cases reply <;> rfl
  | sendSdp sdp => cases reply <;> rfl
  | _ => rfl

/-- Only a check decides, and the first task is done when it stores its stream. -/
theorem advance_decided (phase : Phase) {op : Op} (other : ∀ generation, op ≠ .isStale generation)
    (reply : op.Reply) : (phase.advance op reply).decided = phase.decided ∨
      (∃ stream, op = .setLocalStream stream) ∧ (phase.advance op reply).decided = false := by
  cases op with
  | isStale generation => exact absurd rfl (other generation)
  | getUserMedia audio video => cases reply <;> exact .inl rfl
  | hasSender slot => cases reply <;> exact .inl rfl
  | replaceTrack slot track => cases reply <;> exact .inl rfl
  | addTrack slot track => cases reply <;> exact .inl rfl
  | sendSdp sdp => cases reply <;> exact .inl rfl
  | setLocalStream stream => exact .inr ⟨⟨stream, rfl⟩, rfl⟩
  | _ => exact .inl rfl

/-- Only the last check of a task decides. -/
theorem decided_of_advance {op : Op} (other : ∀ generation, op ≠ .isStale generation)
    {reply : op.Reply} (decided : (phase.advance op reply).decided = true) :
    phase.decided = true := by
  rcases advance_decided phase other reply with same | ⟨-, done⟩
  · exact same ▸ decided
  · cases done.symm.trans decided

/-- The generation stays, until the session closes. -/
theorem exec_generation {op : Op} {session session' : WebRtcRoomSession} {reply : op.Reply}
    (effect : exec op session reply session') (other : op ≠ .close) :
    session'.closed = session.closed ∧ session'.mediaGeneration = session.mediaGeneration := by
  cases op with
  | close => exact absurd rfl other
  | getUserMedia audio video =>
      obtain ⟨-, effect⟩ := effect
      cases reply with
      | ok stream =>
          obtain ⟨-, -, -, -, rfl⟩ := effect
          exact ⟨rfl, rfl⟩
      | error err =>
          cases (show session' = session from effect)
          exact ⟨rfl, rfl⟩
  | connectGain gain =>
      have effect : if session.willing (.connectGain gain) = true then _ else _ := effect
      split at effect <;> obtain ⟨-, rfl⟩ := effect <;> exact ⟨rfl, rfl⟩
  | replaceTrack slot track =>
      obtain ⟨-, rfl⟩ := effect
      split <;> exact ⟨rfl, rfl⟩
  | addTrack slot track =>
      obtain ⟨-, rfl⟩ := effect
      split <;> exact ⟨rfl, rfl⟩
  | sendSdp sdp =>
      obtain ⟨-, rfl⟩ := effect
      split <;> exact ⟨rfl, rfl⟩
  | _ =>
      first
        | cases effect; exact ⟨rfl, rfl⟩
        | obtain ⟨-, rfl⟩ := effect; exact ⟨rfl, rfl⟩

/-- The media are the same. -/
theorem SameMedia.refl (session : WebRtcRoomSession) : SameMedia session session :=
  ⟨fun _ => Iff.rfl, rfl⟩

/-- A new track on the sender of the screen. -/
theorem SameMedia.carry (session : WebRtcRoomSession) (track : Option Track) :
    SameMedia session (session.carry .screen track) := by
  refine ⟨fun kind => ?_, rfl⟩
  have elsewhere : kind.slot ≠ .screen := by cases kind <;> decide
  change (∃ carried, Function.update session.sender .screen (some track) kind.slot = _) ↔ _
  rw [Function.update_of_ne elsewhere]
  exact Iff.rfl

/-- Other steps leave the media alone. -/
theorem exec_same {op : Op} (other : ¬ op.Media) {session session' : WebRtcRoomSession}
    {reply : op.Reply} (effect : exec op session reply session') : SameMedia session session' := by
  cases op with
  | hasSender slot =>
      obtain ⟨-, rfl⟩ := effect
      exact .refl _
  | replaceTrack slot track =>
      obtain rfl : slot = .screen := not_not.mp other
      obtain ⟨-, rfl⟩ := effect
      split
      · exact .carry _ _
      · exact .refl _
  | addTrack slot track =>
      obtain rfl : slot = .screen := not_not.mp other
      obtain ⟨-, rfl⟩ := effect
      split
      · exact .carry _ _
      · exact .refl _
  | setLocalStream stream => exact absurd trivial other
  | swapLocalStream stream => exact absurd trivial other
  | dropLocalStream => exact absurd trivial other
  | getUserMedia audio video =>
      obtain ⟨-, effect⟩ := effect
      cases reply with
      | ok stream =>
          obtain ⟨-, -, -, -, rfl⟩ := effect
          exact ⟨fun _ => Iff.rfl, rfl⟩
      | error err =>
          cases (show session' = session from effect)
          exact .refl _
  | connectGain gain =>
      have effect : if session.willing (.connectGain gain) = true then _ else _ := effect
      split at effect <;> obtain ⟨-, rfl⟩ := effect <;> exact ⟨fun _ => Iff.rfl, rfl⟩
  | sendSdp sdp =>
      obtain ⟨-, rfl⟩ := effect
      split <;> exact ⟨fun _ => Iff.rfl, rfl⟩
  | _ =>
      first
        | cases effect; exact ⟨fun _ => Iff.rfl, rfl⟩
        | obtain ⟨-, rfl⟩ := effect; exact ⟨fun _ => Iff.rfl, rfl⟩

/-- Carrying the screen says nothing about the microphone or the camera. -/
theorem switched_screen (phase : Phase) (carries : Bool) (kind : Kind) :
    (phase.switches .screen carries).switched kind.slot = phase.switched kind.slot := by
  have elsewhere : kind.slot ≠ .screen := by cases kind <;> decide
  exact Function.update_of_ne elsewhere _ _

/-- Other steps teach the task nothing of the media. -/
theorem advance_media (phase : Phase) {op : Op} (other : ¬ op.Media) (reply : op.Reply) :
    (∀ kind : Kind, (phase.advance op reply).switched kind.slot = phase.switched kind.slot) ∧
      (phase.advance op reply).stored = phase.stored := by
  cases op with
  | isStale generation => cases reply <;> exact ⟨fun _ => rfl, rfl⟩
  | getUserMedia audio video => cases reply <;> exact ⟨fun _ => rfl, rfl⟩
  | hasSender slot =>
      obtain rfl : slot = .screen := not_not.mp other
      cases reply with
      | false => exact ⟨switched_screen phase false, rfl⟩
      | true => exact ⟨fun _ => rfl, rfl⟩
  | replaceTrack slot track =>
      obtain rfl : slot = .screen := not_not.mp other
      cases reply with
      | ok => exact ⟨switched_screen phase track.isSome, rfl⟩
      | error err => exact ⟨fun _ => rfl, rfl⟩
  | addTrack slot track =>
      obtain rfl : slot = .screen := not_not.mp other
      cases reply with
      | false => exact ⟨fun _ => rfl, rfl⟩
      | true => exact ⟨switched_screen phase true, rfl⟩
  | sendSdp sdp => cases reply <;> exact ⟨fun _ => rfl, rfl⟩
  | setLocalStream stream => exact absurd trivial other
  | swapLocalStream stream => exact absurd trivial other
  | dropLocalStream => exact absurd trivial other
  | _ => exact ⟨fun _ => rfl, rfl⟩

/-- A slot carries a track exactly if it is given one. -/
theorem carries_carry (session : WebRtcRoomSession) (slot : Slot) (track : Option Track) :
    (session.carry slot track).Carries slot ↔ track.isSome = true := by
  change (∃ carried, Function.update session.sender slot (some track) slot = _) ↔ _
  rw [Function.update_self, Option.isSome_iff_exists]
  exact exists_congr fun carried => Option.some_inj

/-- What a task knows of a sender that it has seen to. -/
theorem Phase.Truthful.switches {session session' : WebRtcRoomSession} {slot : Slot}
    {carries : Bool} (truthful : phase.Truthful session) (decided : phase.decided = true)
    (now : session'.Carries slot ↔ carries = true)
    (elsewhere : ∀ other, other ≠ slot → session'.sender other = session.sender other)
    (stored : session'.localStream = session.localStream) :
    (phase.switches slot carries).Truthful session' := by
  obtain ⟨senders, stream⟩ := truthful.knows decided
  refine Phase.Knows.truthful ⟨fun kind known given => ?_,
    fun kept known => stored.trans (stream kept known)⟩ decided
  change Function.update phase.switched slot (some carries) kind.slot = some known at given
  by_cases own : kind.slot = slot
  · rw [own, Function.update_self] at given
    cases given
    exact own ▸ now
  · rw [Function.update_of_ne own] at given
    unfold WebRtcRoomSession.Carries
    rw [elsewhere _ own]
    exact senders kind known given

/-- What a task knows of the stream that it has stored. -/
theorem Phase.Truthful.stores {session session' : WebRtcRoomSession} {stream : Option Stream}
    (truthful : phase.Truthful session) (decided : phase.decided = true)
    (sender : session'.sender = session.sender) (stored : session'.localStream = stream) :
    (phase.stores stream).Truthful session' := by
  have senders := (truthful.knows decided).senders
  refine Phase.Knows.truthful ⟨fun kind carries known => ?_, fun other kept => ?_⟩ decided
  · unfold WebRtcRoomSession.Carries
    rw [sender]
    exact senders kind carries known
  · cases kept
    exact stored

/-- A step that sees to the media, of a task that may. -/
theorem Phase.Truthful.media {session session' : WebRtcRoomSession} {op : Op} {reply : op.Reply}
    (truthful : phase.Truthful session) (decided : phase.decided = true) (media : op.Media)
    (effect : exec op session reply session') : (phase.advance op reply).Truthful session' := by
  have carries (slot : Slot) (track : Option Track) :
      (phase.switches slot track.isSome).Truthful (session.carry slot track) :=
    truthful.switches decided (carries_carry session slot track)
      (fun other elsewhere => Function.update_of_ne elsewhere _ _) rfl
  have settled (stream : Stream) : (phase.settles stream).Truthful session :=
    truthful.still (.refl session) id (fun _ => rfl) rfl
  cases op with
  | hasSender slot =>
      obtain ⟨known, rfl⟩ := effect
      cases reply with
      | true => exact truthful
      | false =>
          refine truthful.switches decided ?_ (fun _ _ => rfl) rfl
          have missing := Option.not_isSome_iff_eq_none.mp (Bool.eq_false_iff.mp known.symm)
          refine iff_of_false ?_ (Bool.false_ne_true)
          rintro ⟨track, held⟩
          cases missing.symm.trans held
  | replaceTrack slot track =>
      obtain ⟨-, rfl⟩ := effect
      cases reply with
      | ok => exact carries slot track
      | error err => exact truthful
  | addTrack slot track =>
      obtain ⟨-, rfl⟩ := effect
      cases reply with
      | true => exact carries slot (some track)
      | false => exact truthful
  | setLocalStream stream => exact (if_neg Bool.false_ne_true).mpr ⟨fun _ => rfl, rfl⟩
  | swapLocalStream stream =>
      cases effect
      exact (settled stream).stores decided rfl rfl
  | dropLocalStream =>
      cases effect
      exact Phase.Truthful.stores truthful decided rfl rfl
  | _ => exact media.elim

/-- The last check comes after the media were captured. -/
theorem Phase.LastCheck.captures (last : phase.LastCheck) : phase.task.Captures := by
  unfold Phase.LastCheck at last
  split at last
  · rename_i settings own
    rw [own]
    trivial
  · rename_i settings own
    rw [own]
    trivial
  · exact last.elim

/-- A check of the generation. -/
theorem Governed.check (governed : Governed state (phase ::ₘ others)) (stale : Bool)
    (allowed : Ordered state phase (.isStale phase.generation) others)
    (effect : mediaTasks.exec (.isStale phase.generation) state stale after) :
    Governed after (phase.checked stale ::ₘ others) := by
  obtain ⟨⟨found, same⟩, calls⟩ := effect
  obtain ⟨few, allowed⟩ := allowed
  have truthful := governed.truthful phase (Multiset.mem_cons_self _ _)
  have kept : SameMedia state.1 after.1 := same ▸ .refl _
  have still {last : Phase} (decided : phase.decided = true → last.decided = true)
      (switched : last.switched = phase.switched) (stored : last.stored = phase.stored) :
      last.Truthful after.1 :=
    truthful.still kept decided (fun kind => congrFun switched kind.slot) stored
  cases stale with
  | true =>
      rw [if_pos found.symm] at allowed
      exact governed.turn calls (by rw [same]) (by rw [same]) ⟨rfl, rfl, rfl⟩
        (fun _ => .inr allowed) .inl (still id rfl rfl) (.inr kept)
  | false =>
      rw [if_neg (Bool.eq_false_iff.mp found.symm)] at allowed
      refine governed.turn calls (by rw [same]) (by rw [same]) ⟨rfl, rfl, rfl⟩ .inl
        (fun now => ?_) (still (fun before => ?_) rfl rfl) (.inr kept)
      · rcases (Bool.or_eq_true _ _).mp now with before | last
        · exact .inl before
        · have last := of_decide_eq_true last
          have fresh : phase.generation = state.1.mediaGeneration := by
            have fresh := (Bool.or_eq_false_iff.mp found.symm).2
            exact (not_not.mp (of_decide_eq_false fresh)).symm
          exact .inr ⟨allowed last, governed.newest few phase (Multiset.mem_cons_self _ _)
            last.captures fresh⟩
      · exact (Bool.or_eq_true _ _).mpr (.inl before)

/-- **Step lemma.** A task that sees to the media has decided. -/
theorem Governed.step (governed : Governed state (phase ::ₘ others)) {op : Op} {reply : op.Reply}
    (allowed : Ordered state phase op others) (media : op.Media → phase.decided = true)
    (own : ∀ generation, op = .isStale generation → generation = phase.generation)
    (effect : mediaTasks.exec op state reply after) :
    Governed after (phase.advance op reply ::ₘ others) := by
  by_cases checks : ∃ generation, op = .isStale generation
  · obtain ⟨generation, rfl⟩ := checks
    obtain rfl := own generation rfl
    exact governed.check reply allowed effect
  · have other (generation : ℕ) (same : op = .isStale generation) : False :=
      checks ⟨generation, same⟩
    have opened : op ≠ .close := by
      rintro rfl
      exact allowed
    obtain ⟨effect, calls⟩ := effect
    obtain ⟨closed, generation⟩ := exec_generation effect opened
    have stale := advance_stale phase other reply
    have truthful := governed.truthful phase (Multiset.mem_cons_self _ _)
    refine governed.turn calls closed generation (advance_same phase op reply)
      (fun given => .inl (stale ▸ given)) (fun given => .inl (decided_of_advance other given)) ?_ ?_
    · by_cases sees : op.Media
      · exact truthful.media (media sees) sees effect
      · obtain ⟨switched, stored⟩ := advance_media phase sees reply
        have decided : (phase.advance op reply).decided = phase.decided := by
          refine (advance_decided phase other reply).resolve_right ?_
          rintro ⟨⟨stream, rfl⟩, -⟩
          exact sees trivial
        exact truthful.still (exec_same sees effect) (fun given => decided.trans given) switched
          stored
    · by_cases sees : op.Media
      · exact .inl (media sees)
      · exact .inr (exec_same sees effect)

/-- A step, and what comes after it. -/
theorem governing_call {α : Type} {post : Phase → α → Prop} {op : Op}
    {next : op.Reply → Call α} (media : op.Media → phase.decided = true)
    (own : ∀ generation, op = .isStale generation → generation = phase.generation)
    (rest : ∀ state reply after others, Ordered state phase op others →
      mediaTasks.exec op state reply after →
      governing.Safe post (phase.advance op reply) (next reply)) :
    governing.Safe post phase (.call op next) := by
  intro state others inv allowed
  exact ⟨trivial, fun reply after effect =>
    ⟨Governed.step inv allowed media own effect, rest state reply after others allowed effect⟩⟩

/-! ## The tasks -/

/-- The task has put the media of the settings on the senders, and stored the stream. -/
structure Phase.Complete (phase : Phase) (settings : MediaSettings) : Prop where
  decided : phase.decided = true
  audio : phase.switched .audio = some settings.micEnabled
  video : phase.switched .video = some settings.cameraEnabled
  silent : settings.silent = true → phase.stored = some none
  stored : settings.silent = false → ∃ raw stream, phase.acquired = some raw ∧
    phase.stored = some (some stream) ∧ Stems raw stream

/-- What a task that ends has done. -/
def Phase.Done (phase : Phase) : Prop :=
  ∀ settings, phase.task = .apply settings → phase.stale = true ∨ phase.Complete settings

/-- The calls to the browser succeed for new settings. -/
theorem Ordered.willing {op : Op} (own : phase.task = .apply settings)
    (allowed : (∃ first, phase.task = .start first) ∨ state.1.willing op = true) :
    state.1.willing op = true := by
  refine allowed.resolve_left ?_
  rintro ⟨first, starts⟩
  cases own.symm.trans starts

/-- A slot that is switched twice is as it was switched last. -/
theorem switches_switches (phase : Phase) (slot : Slot) (first second : Bool) :
    (phase.switches slot first).switches slot second = phase.switches slot second := by
  unfold Phase.switches
  exact congrArg (fun switched => { phase with switched }) (Function.update_idem _ _ _)

/-- A muted sender carries nothing. -/
theorem muteSender_safe (kind : Kind) (own : phase.task = .apply settings)
    (decided : phase.decided = true) :
    governing.Safe (fun last _ => last = phase.switches kind.slot false) phase
      (muteSender kind) := by
  refine governing_call (fun _ => decided) (by rintro _ ⟨⟩) fun _ known _ _ _ _ => ?_
  cases known with
  | false => exact rfl
  | true =>
      refine governing_call (fun _ => decided) (by rintro _ ⟨⟩)
        fun state replaced after others allowed effect => ?_
      cases replaced with
      | ok => exact rfl
      | error err => cases effect.1.1.trans (Ordered.willing own allowed)

/-- A sender that is switched carries a track exactly if its kind is enabled. -/
theorem switchTrack_safe (kind : Kind) {enabled : Bool} {track : Option Track}
    (given : enabled = true → track.isSome = true) (own : phase.task = .apply settings)
    (decided : phase.decided = true) :
    governing.Safe (fun last added => last = phase.switches kind.slot enabled ∧
      added.isSome = true) phase (switchTrack kind enabled track) := by
  cases enabled with
  | false =>
      refine Outline.Safe.bind ((muteSender_safe kind own decided).mono ?_)
      rintro last - rfl
      exact ⟨rfl, rfl⟩
  | true =>
      obtain ⟨track, rfl⟩ := Option.isSome_iff_exists.mp (given rfl)
      refine governing_call (fun _ => decided) (by rintro _ ⟨⟩) fun _ known _ _ _ _ => ?_
      cases known with
      | false =>
          refine governing_call (fun _ => decided) (by rintro _ ⟨⟩)
            fun state added after others allowed effect => ?_
          cases added with
          | false => cases effect.1.1.trans (Ordered.willing own allowed)
          | true => exact ⟨switches_switches phase kind.slot false true, rfl⟩
      | true =>
          refine governing_call (fun _ => decided) (by rintro _ ⟨⟩)
            fun state replaced after others allowed effect => ?_
          cases replaced with
          | ok => exact ⟨rfl, rfl⟩
          | error err => cases effect.1.1.trans (Ordered.willing own allowed)

/-- When both kinds are off all senders are muted. -/
theorem muteAll_safe (own : phase.task = .apply settings) (decided : phase.decided = true)
    (silent : settings.silent = true) :
    governing.Safe (fun last _ => Phase.Done last) phase muteAll := by
  have off : settings.micEnabled = false ∧ settings.cameraEnabled = false := by
    simpa [MediaSettings.silent] using silent
  refine governing_call (fun _ => decided) (by rintro _ ⟨⟩) fun _ _ _ _ _ _ => ?_
  refine Outline.Safe.bind (Outline.safe_ret.mpr ?_)
  refine Outline.Safe.bind ((muteSender_safe .audio own decided).mono ?_)
  rintro _ - rfl
  refine Outline.Safe.bind
    (Outline.Safe.mono ?_ (muteSender_safe .video (by exact own) (by exact decided)))
  rintro _ - rfl
  refine governing_call (fun _ => decided) (by rintro _ ⟨⟩) fun _ _ _ _ _ _ => ?_
  intro given applies
  cases own.symm.trans applies
  refine .inr ⟨decided, ?_, ?_, fun _ => rfl, fun loud => ?_⟩
  · rw [off.1]
    rfl
  · rw [off.2]
    rfl
  · cases loud.symm.trans silent

/-- What the stream for the connection has, the captured one has. -/
theorem Stems.answers {raw stream : Stream} (stems : Stems raw stream) (kind : Kind) :
    (∃ track ∈ stream, track.kind = kind) ↔ ∃ track ∈ raw, track.kind = kind := by
  rcases stems with rfl | ⟨captured, gain, audio, rfl⟩
  · exact Iff.rfl
  · cases kind with
    | audio => exact iff_of_true ⟨gain, List.mem_cons_self, audio⟩ captured
    | video =>
        simp only [List.mem_cons, List.mem_filter, decide_eq_true_eq]
        constructor
        · rintro ⟨track, rfl | ⟨member, -⟩, video⟩
          · cases audio.symm.trans video
          · exact ⟨track, member, video⟩
        · rintro ⟨track, member, video⟩
          exact ⟨track, .inr ⟨member, video⟩, video⟩

/-- A stream has a first track of a kind exactly if it has one at all. -/
theorem firstTrackKind_isSome (stream : Stream) (kind : Kind) :
    (firstTrackKind stream kind).isSome = true ↔ ∃ track ∈ stream, track.kind = kind := by
  simp only [firstTrackKind, List.find?_isSome, decide_eq_true_eq]

/-- What is sent has the tracks of what was captured, processed or copied. -/
theorem process_stems (raw : Stream) (inputLevel : ℕ) :
    governing.Safe (fun last stream => last = phase ∧ Stems raw stream) phase
      (processLocalMediaForSend raw inputLevel) := by
  refine governing_call (fun media => media.elim) (by rintro _ ⟨⟩) fun _ _ _ _ _ _ => ?_
  refine Outline.Safe.bind (Outline.safe_ret.mpr ?_)
  split
  · exact ⟨rfl, .inl rfl⟩
  · rename_i present
    refine governing_call (fun media => media.elim) (by rintro _ ⟨⟩) fun _ works _ _ _ _ => ?_
    cases works with
    | false => exact ⟨rfl, .inl rfl⟩
    | true =>
        refine governing_call (fun media => media.elim) (by rintro _ ⟨⟩) fun _ _ _ _ _ _ => ?_
        refine governing_call (fun media => media.elim) (by rintro _ ⟨⟩)
          fun state node after others _ effect => ?_
        cases node with
        | none => exact ⟨rfl, .inl rfl⟩
        | some gain =>
            have audio : gain.kind = .audio := by
              have effect : if state.1.willing (.connectGain (levelToGain inputLevel)) = true
                then _ else _ := effect.1
              split at effect
              · cases effect.1
                rfl
              · cases effect.1
            have captured : (firstTrackKind raw .audio).isSome = true :=
              Option.isSome_iff_ne_none.mpr (by simpa using present)
            exact ⟨rfl, .inr ⟨(firstTrackKind_isSome raw .audio).mp captured, gain, audio, rfl⟩⟩

/-- A new offer is sent. -/
theorem sendLocalOffer_sent (own : phase.task = .apply settings) :
    governing.Safe (fun last sent => last = { phase with offered := true } ∧ sent = .ok ()) phase
      sendLocalOffer := by
  refine governing_call (fun media => media.elim) (by rintro _ ⟨⟩)
    fun state offer after others allowed effect => ?_
  cases offer with
  | error err => cases effect.1.1.trans (Ordered.willing own allowed)
  | ok sdp =>
      refine governing_call (fun media => media.elim) (by rintro _ ⟨⟩)
        fun state set after others allowed effect => ?_
      cases set with
      | error err => cases effect.1.1.trans (Ordered.willing own allowed)
      | ok =>
          refine governing_call (fun media => media.elim) (by rintro _ ⟨⟩)
            fun state sent after others allowed effect => ?_
          cases sent with
          | error err => cases effect.1.1.trans (Ordered.willing own allowed)
          | ok => exact ⟨rfl, rfl⟩

/-- What was captured is sent for the kinds that are on. -/
theorem sendMedia_done {raw : Stream} (own : phase.task = .apply settings)
    (decided : phase.decided = true) (loud : settings.silent = false)
    (acquired : phase.acquired = some raw)
    (audio : (∃ track ∈ raw, track.kind = .audio) ↔ settings.micEnabled = true)
    (video : (∃ track ∈ raw, track.kind = .video) ↔ settings.cameraEnabled = true) :
    governing.Safe (fun last _ => Phase.Done last) phase (sendMedia settings raw) := by
  refine Outline.Safe.bind ((process_stems raw settings.inputLevel).mono ?_)
  rintro phase stream ⟨rfl, stems⟩
  have present {kind : Kind} {enabled : Bool}
      (asked : (∃ track ∈ raw, track.kind = kind) ↔ enabled = true) (on : enabled = true) :
      (firstTrackKind stream kind).isSome = true :=
    (firstTrackKind_isSome stream kind).mpr ((stems.answers kind).mpr (asked.mpr on))
  refine Outline.Safe.bind ((switchTrack_safe .audio (present audio) own decided).mono ?_)
  rintro _ audioAdded ⟨rfl, given⟩
  obtain ⟨audioAdded, rfl⟩ := Option.isSome_iff_exists.mp given
  refine Outline.Safe.bind
    (Outline.Safe.mono ?_ (switchTrack_safe .video (present video) (by exact own)
      (by exact decided)))
  rintro _ videoAdded ⟨rfl, given⟩
  obtain ⟨videoAdded, rfl⟩ := Option.isSome_iff_exists.mp given
  -- The stream is stored at once, or after another offer.
  have stores (offered : Bool) : governing.Safe (fun last _ => Phase.Done last)
      { (phase.switches .audio settings.micEnabled).switches .video settings.cameraEnabled with
        offered } (issue (.swapLocalStream stream)) := by
    refine governing_call (fun _ => decided) (by rintro _ ⟨⟩) fun _ _ _ _ _ _ => ?_
    intro given applies
    cases own.symm.trans applies
    refine .inr ⟨decided, rfl, rfl, fun silent => ?_, fun _ => ⟨raw, stream, acquired, rfl, stems⟩⟩
    cases loud.symm.trans silent
  change governing.Safe _ _ (ite ..)
  split
  · refine Outline.Safe.bind (Outline.Safe.mono ?_ (sendLocalOffer_sent (by exact own)))
    rintro _ _ ⟨rfl, rfl⟩
    exact stores true
  · exact stores _

/-- A device is asked for exactly if its kind is enabled. -/
theorem mediaTrackConstraint_ne_none (enabled : Bool) (deviceId : Text.Chars) :
    mediaTrackConstraint enabled deviceId ≠ .none ↔ enabled = true := by
  unfold mediaTrackConstraint
  cases enabled with
  | false => simp
  | true =>
      simp only [Bool.not_true, Bool.false_eq_true, if_false, iff_true]
      split <;> exact Constraint.noConfusion

/-- The last check of new settings decides. -/
theorem checked_apply (own : phase.task = .apply settings)
    (last : settings.silent = true ∨ phase.acquired.isSome = true) :
    (phase.checked false).decided = true := by
  refine (Bool.or_eq_true _ _).mpr (.inr (decide_eq_true ?_))
  unfold Phase.LastCheck
  rw [own]
  exact last

/-- The last check of a start decides. -/
theorem checked_start (own : phase.task = .start settings)
    (last : phase.acquired.isSome = true) : (phase.checked false).decided = true := by
  refine (Bool.or_eq_true _ _).mpr (.inr (decide_eq_true ?_))
  unfold Phase.LastCheck
  rw [own]
  exact last

/-- New settings are applied when the task ends, unless it was stale. -/
theorem applyLocalMedia_done (own : phase.task = .apply settings) :
    governing.Safe (fun last _ => Phase.Done last) phase
      (applyLocalMedia phase.generation settings) := by
  refine governing_call (fun media => media.elim) (by rintro _ ⟨⟩; rfl)
    fun _ stale _ _ _ _ => ?_
  refine Outline.Safe.bind (Outline.safe_ret.mpr ?_)
  cases stale with
  | true => exact fun _ _ => .inl rfl
  | false =>
      simp only [Bool.false_eq_true, if_false]
      split
      · rename_i silent
        exact muteAll_safe own (checked_apply own (.inl silent)) silent
      · rename_i sounding
        have loud := Bool.eq_false_iff.mpr sounding
        have asks : getUserMedia settings.micEnabled settings.cameraEnabled settings.micDeviceId
            settings.cameraDeviceId = issue (.getUserMedia
              (mediaTrackConstraint settings.micEnabled settings.micDeviceId)
              (mediaTrackConstraint settings.cameraEnabled settings.cameraDeviceId)) :=
          if_neg (by exact sounding)
        rw [asks]
        refine governing_call (fun media => media.elim) (by rintro _ ⟨⟩)
          fun state media after others allowed effect => ?_
        cases media with
        | error err => cases effect.1.1.trans (Ordered.willing (by exact own) allowed)
        | ok raw =>
            obtain ⟨⟨-, audio, video, -⟩, -⟩ := effect
            refine Outline.Safe.bind (Outline.safe_ret.mpr ?_)
            refine governing_call (fun media => media.elim) (by rintro _ ⟨⟩; rfl)
              fun _ stale _ _ _ _ => ?_
            refine Outline.Safe.bind (Outline.safe_ret.mpr ?_)
            cases stale with
            | true =>
                exact governing_call (fun media => media.elim) (by rintro _ ⟨⟩)
                  fun _ _ _ _ _ _ => fun _ _ => .inl rfl
            | false =>
                exact sendMedia_done own (checked_apply own (.inr rfl)) loud rfl
                  (audio.trans (mediaTrackConstraint_ne_none _ _))
                  (video.trans (mediaTrackConstraint_ne_none _ _))

/-- A task that has decided, before it stores its stream. -/
theorem decided_safe {α : Type} {program : Call α}
    (only : program.Only fun op => (∀ generation, op ≠ .isStale generation) ∧
      ∀ stream, op ≠ .setLocalStream stream)
    (decided : phase.decided = true) :
    governing.Safe (fun last _ => Phase.task last = phase.task ∧ last.decided = true) phase
      program := by
  refine Outline.Safe.of_steps ?_ only ⟨rfl, decided⟩
  rintro op (now : Phase) ⟨unchecked, unstored⟩ between state others inv allowed
  refine ⟨trivial, fun reply after effect => ⟨Governed.step inv allowed (fun _ => between.2)
    (fun generation same => absurd same (unchecked generation)) effect, ?_, ?_⟩⟩
  · exact (advance_same now op reply).1.trans between.1
  · have same := (advance_decided now unchecked reply).resolve_right fun done =>
      done.1.elim unstored
    exact same.trans between.2

/-- A task that leaves the media alone. -/
theorem sharing_safe {α : Type} {program : Call α}
    (only : program.Only (Op.Shares phase.generation)) :
    governing.Safe (fun last _ => Phase.task last = phase.task) phase program := by
  have steps : governing.Safe (fun last _ => Phase.task last = phase.task ∧
      last.generation = phase.generation) phase program := by
    refine Outline.Safe.of_steps ?_ only ⟨rfl, rfl⟩
    rintro op (now : Phase) shares between state others inv allowed
    have apart (media : op.Media) : now.decided = true := by
      cases op <;> first | exact absurd shares media | exact media.elim | exact shares.elim
    refine ⟨trivial, fun reply after effect => ⟨Governed.step inv allowed apart ?_ effect, ?_, ?_⟩⟩
    · rintro generation rfl
      exact (show generation = phase.generation from shares).trans between.2.symm
    · exact (advance_same now op reply).1.trans between.1
    · exact (advance_same now op reply).2.2.trans between.2
  exact steps.mono fun last _ between => between.1

/-- Whoever goes on after capturing has captured something. -/
theorem getUserMedia_acquired {micEnabled cameraEnabled : Bool}
    {micDeviceId cameraDeviceId : Text.Chars} :
    governing.Safe (fun last media => Phase.task last = phase.task ∧
      last.generation = phase.generation ∧
        ∀ stream, media = .ok stream → last.acquired.isSome = true) phase
      (getUserMedia micEnabled cameraEnabled micDeviceId cameraDeviceId) := by
  unfold getUserMedia
  split
  · exact ⟨rfl, rfl, by rintro _ ⟨⟩⟩
  · refine governing_call (fun media => media.elim) (by rintro _ ⟨⟩) fun _ media _ _ _ _ => ?_
    cases media with
    | ok stream => exact ⟨rfl, rfl, fun _ _ => rfl⟩
    | error err => exact ⟨rfl, rfl, by rintro _ ⟨⟩⟩

/-- A start stores what it captured before anybody else decides. -/
theorem start_governed (own : phase.task = .start settings) :
    governing.Safe (fun last _ => Phase.task last = phase.task) phase
      (start phase.generation settings) := by
  have offers {phase : Phase} : governing.Safe (fun last _ => Phase.task last = phase.task) phase
      firstOffer :=
    sharing_safe (firstOffer_only.mono fun _ => Op.Offers.shares)
  have tail {raw : Stream} {phase : Phase} (decided : phase.decided = true) :
      governing.Safe (fun last _ => Phase.task last = phase.task) phase (do
        let streamForPc ← processLocalMediaForSend raw settings.inputLevel
        streamForPc.forM attachTrack
        issue (.setLocalStream streamForPc)
        firstOffer) := by
    have processing : (processLocalMediaForSend raw settings.inputLevel).Only fun op =>
        (∀ generation, op ≠ .isStale generation) ∧ ∀ stream, op ≠ .setLocalStream stream := by
      refine (processLocalMediaForSend_only raw settings.inputLevel).mono ?_
      intro op processes
      constructor <;> (rintro _ rfl; exact processes)
    have attaching (stream : Stream) : (stream.forM attachTrack).Only fun op =>
        (∀ generation, op ≠ .isStale generation) ∧ ∀ stream, op ≠ .setLocalStream stream := by
      refine Program.Only.forM fun track _ => (attachTrack_only track).mono ?_
      intro op sends
      constructor <;> (rintro _ rfl; exact sends)
    refine Outline.Safe.bind ((decided_safe processing decided).mono fun now stream processed => ?_)
    refine Outline.Safe.bind
      ((decided_safe (attaching stream) processed.2).mono fun last _ attached => ?_)
    -- from here on the task has only its offer left
    refine governing_call (fun _ => attached.2) (by rintro _ ⟨⟩) fun _ _ _ _ _ _ => ?_
    exact offers.mono fun final _ same => same.trans (attached.1.trans processed.1)
  refine governing_call (fun media => media.elim) (by rintro _ ⟨⟩; rfl) fun _ stale _ _ _ _ => ?_
  refine Outline.Safe.bind (Outline.safe_ret.mpr ?_)
  cases stale with
  | true => exact rfl
  | false =>
      refine Outline.Safe.bind (getUserMedia_acquired.mono fun now media acquired => ?_)
      obtain ⟨task, generation, acquired⟩ := acquired
      have task : now.task = phase.task := task
      cases media with
      | error err =>
          refine governing_call (fun media => media.elim) (by rintro _ ⟨⟩) fun _ _ _ _ _ _ => ?_
          refine Outline.Safe.bind (Outline.safe_ret.mpr ?_)
          exact offers.mono fun last _ same => same.trans task
      | ok stream =>
          refine governing_call (fun media => media.elim) ?_ fun _ stale _ _ _ _ => ?_
          · rintro _ ⟨⟩
            exact generation.symm
          refine Outline.Safe.bind (Outline.safe_ret.mpr ?_)
          cases stale with
          | true =>
              exact governing_call (fun media => media.elim) (by rintro _ ⟨⟩)
                fun _ _ _ _ _ _ => task
          | false =>
              exact (tail (checked_start (task.trans own) (acquired stream rfl))).mono
                fun last _ same => same.trans task

/-- Every task of the client keeps to its phase. -/
theorem task_governed {task : Task} (own : phase.task = task) :
    governing.Safe (fun last _ => Phase.Done last) phase (task.program phase.generation) := by
  have others (other : ∀ settings, task ≠ .apply settings) (last : Phase)
      (same : last.task = phase.task) : last.Done :=
    fun settings applies => absurd (own.symm.trans (same.symm.trans applies)) (other settings)
  cases task with
  | start settings =>
      refine (start_governed own).mono ?_
      exact fun last _ => others (by rintro _ ⟨⟩) last
  | apply settings => exact applyLocalMedia_done own
  | publish stream track =>
      refine (sharing_safe (publishScreenShare_only phase.generation stream track)).mono ?_
      exact fun last _ => others (by rintro _ ⟨⟩) last
  | stop =>
      refine (sharing_safe (stopScreenShare_only phase.generation)).mono ?_
      exact fun last _ => others (by rintro _ ⟨⟩) last
  | close =>
      exact governing_call (fun media => media.elim) (by rintro _ ⟨⟩)
        fun _ _ _ _ never _ => never.elim

/-! ## Runs -/

/-- A task that knows of all its settings has put them in force. -/
theorem Phase.Complete.applied {latest : Application} (complete : phase.Complete latest.settings)
    (knows : phase.Knows state.1) (acquired : state.2.acquired latest.call = phase.acquired) :
    Applied state latest := by
  refine ⟨knows.senders .audio _ complete.audio, knows.senders .video _ complete.video,
    fun silent => knows.stream _ (complete.silent silent), fun loud => ?_⟩
  obtain ⟨raw, stream, found, stored, stems⟩ := complete.stored loud
  exact ⟨raw, stream, acquired.trans found, knows.stream _ stored, stems⟩

/-- A task that is done may end. -/
theorem Governed.finish (governed : Governed state (phase ::ₘ others)) (done : phase.Done) :
    Governed (mediaTasks.finish state phase ()) others := by
  have rest {p : Phase → Prop} (all : ∀ other ∈ phase ::ₘ others, p other) :
      ∀ other ∈ others, p other :=
    fun other member => all other (Multiset.mem_cons_of_mem member)
  refine ⟨governed.opened, governed.limited, rest governed.bounded, rest governed.numbered,
    governed.made, rest governed.own, fun few => rest (governed.newest few),
    (Multiset.countP_le_of_le _ (Multiset.le_cons_self _ _)).trans governed.exclusive,
    rest governed.stale, rest governed.truthful, fun latest member => ?_⟩
  have mine := Multiset.mem_cons_self phase others
  by_cases own : phase.call = latest.call
  · have applies := governed.own phase mine latest member own
    have complete := (done latest.settings applies).resolve_left fun stale =>
      governed.stale phase mine stale latest member own.symm
    refine .inr ⟨complete.applied ((governed.truthful phase mine).knows complete.decided) ?_,
      governed.others_undecided complete.decided⟩
    change Function.update state.2.acquired phase.call phase.acquired latest.call = phase.acquired
    rw [own, Function.update_self]
  · rcases governed.settled latest member with ⟨other, listed, called⟩ | ⟨applied, none⟩
    · rcases Multiset.mem_cons.mp listed with rfl | later
      · exact absurd called own
      · exact .inl ⟨other, later, called⟩
    · exact .inr ⟨applied.congr (SameMedia.refl _) (Function.update_of_ne (Ne.symm own) _ _),
        rest none⟩

/-- The new call is the latest one, or there is none newer. -/
theorem latest_spawn {calls : Calls} {task : Task} {latest : Application}
    (member : latest ∈ (calls.spawn task).latest) :
    (task = .apply latest.settings ∧ latest.call = calls.made) ∨
      (∀ settings, task ≠ .apply settings) ∧ latest ∈ calls.latest := by
  cases task with
  | apply settings =>
      cases member
      exact .inl ⟨rfl, rfl⟩
  | _ => exact .inr ⟨by rintro _ ⟨⟩, member⟩

/-- While generations are left, the newest one is that of the latest call. -/
theorem Governed.newest_spawn (governed : Governed state others) {task : Task}
    (other : ∀ settings, task ≠ .start settings)
    (few : (if task = .close then state.1
      else { state.1 with mediaGeneration := state.1.nextGeneration }).mediaGeneration <
        WebRtcRoomSession.generationMax) :
    ∀ phase ∈ { task, call := state.2.made, generation := state.1.nextGeneration } ::ₘ others,
      phase.task.Captures → phase.generation = (if task = .close then state.1
        else { state.1 with mediaGeneration := state.1.nextGeneration }).mediaGeneration →
      ∀ latest ∈ (state.2.spawn task).latest, phase.call = latest.call := by
  intro phase member captures newest latest listed
  by_cases closes : task = .close
  · rw [if_pos closes] at few newest
    rcases latest_spawn listed with ⟨applies, -⟩ | ⟨-, before⟩
    · cases closes.symm.trans applies
    · rcases Multiset.mem_cons.mp member with rfl | old
      · cases closes
        exact captures.elim
      · exact governed.newest few phase old captures newest latest before
  · rw [if_neg closes] at few newest
    rcases Multiset.mem_cons.mp member with rfl | old
    · rcases latest_spawn listed with ⟨-, now⟩ | ⟨settings, -⟩
      · exact now.symm
      · cases task with
        | start first => exact absurd rfl (other first)
        | apply last => exact absurd rfl (settings last)
        | _ => exact captures.elim
    · have bound := governed.bounded phase old captures
      have next : state.1.nextGeneration = min (state.1.mediaGeneration + 1) _ := rfl
      change state.1.nextGeneration < _ at few
      change phase.generation = state.1.nextGeneration at newest
      omega

/-- A new call is under way, or the latest one is as far as it was. -/
theorem Governed.settled_spawn (governed : Governed state others) {task : Task}
    {session : WebRtcRoomSession} (same : SameMedia state.1 session) :
    ∀ latest ∈ (state.2.spawn task).latest,
      (∃ phase ∈ { task, call := state.2.made, generation := state.1.nextGeneration } ::ₘ others,
        phase.call = latest.call) ∨
      Applied (session, state.2.spawn task) latest ∧
        ∀ phase ∈ { task, call := state.2.made, generation := state.1.nextGeneration } ::ₘ others,
          phase.decided = false := by
  intro latest newest
  rcases latest_spawn newest with ⟨-, now⟩ | ⟨-, before⟩
  · exact .inl ⟨_, Multiset.mem_cons_self _ _, now.symm⟩
  · rcases governed.settled latest before with ⟨phase, member, called⟩ | ⟨applied, none⟩
    · exact .inl ⟨phase, Multiset.mem_cons_of_mem member, called⟩
    · refine .inr ⟨applied.congr same rfl, fun phase member => ?_⟩
      rcases Multiset.mem_cons.mp member with rfl | old
      · rfl
      · exact none phase old

/-- A new call has the newest generation. -/
theorem Governed.spawn (governed : Governed state others) {task : Task}
    (other : ∀ settings, task ≠ .start settings) :
    Governed (if task = .close then state.1
        else { state.1 with mediaGeneration := state.1.nextGeneration }, state.2.spawn task)
      ({ task, call := state.2.made, generation := state.1.nextGeneration } ::ₘ others) := by
  have same : SameMedia state.1 (if task = .close then state.1
      else { state.1 with mediaGeneration := state.1.nextGeneration }) := by
    split <;> exact ⟨fun _ => Iff.rfl, rfl⟩
  have fresh {phase : Phase} (member : phase ∈ others) : phase.call ≠ state.2.made :=
    (governed.numbered phase member).ne
  have limited := governed.limited
  have next : state.1.nextGeneration = min (state.1.mediaGeneration + 1) _ := rfl
  refine ⟨?_, ?_, ?_, ?_, ?_, ?_, ?_, ?_, ?_, ?_, ?_⟩
  · split <;> exact governed.opened
  · split
    · exact limited
    · exact min_le_right _ _
  · rintro phase member captures
    rcases Multiset.mem_cons.mp member with rfl | old
    · rw [if_neg (by rintro rfl; exact captures)]
    · have bound := governed.bounded phase old captures
      split
      · exact bound
      · change phase.generation ≤ state.1.nextGeneration
        omega
  · rintro phase member
    rcases Multiset.mem_cons.mp member with rfl | old
    · exact Nat.lt_succ_self _
    · exact (governed.numbered phase old).trans (Nat.lt_succ_self _)
  · rintro latest member
    rcases latest_spawn member with ⟨-, called⟩ | ⟨-, old⟩
    · exact called ▸ Nat.lt_succ_self _
    · exact (governed.made latest old).trans (Nat.lt_succ_self _)
  · rintro phase member latest newest called
    rcases latest_spawn newest with ⟨applies, now⟩ | ⟨-, before⟩
    · rcases Multiset.mem_cons.mp member with rfl | old
      · exact applies
      · exact absurd (called.trans now) (fresh old)
    · rcases Multiset.mem_cons.mp member with rfl | old
      · exact absurd called.symm (governed.made latest before).ne
      · exact governed.own phase old latest before called
  · exact governed.newest_spawn other
  · rw [Multiset.countP_cons_of_neg (p := fun phase : Phase => phase.decided = true) _
      Bool.false_ne_true]
    exact governed.exclusive
  · rintro phase member stale latest newest
    rcases Multiset.mem_cons.mp member with rfl | old
    · cases stale
    · rcases latest_spawn newest with ⟨-, now⟩ | ⟨-, before⟩
      · exact now ▸ (fresh old).symm
      · exact governed.stale phase old stale latest before
  · rintro phase member
    rcases Multiset.mem_cons.mp member with rfl | old
    · exact (if_neg Bool.false_ne_true).mpr ⟨fun _ => rfl, rfl⟩
    · exact (governed.truthful phase old).still same id (fun _ => rfl) rfl
  · exact governed.settled_spawn same

/-- What happens besides keeps the invariant. -/
theorem governing_stable : governing.Stable where
  start := by
    rintro state others phase program after ⟨task, other, -, rfl, rfl, rfl⟩ governed
    refine ⟨governed.spawn other, (task_governed rfl).mono ?_⟩
    exact fun phase _ done state others governed => Governed.finish governed done
  discard _ _ _ never := never.elim
  environment := by
    rintro state others after ⟨willing, rfl⟩ governed
    have same : SameMedia state.1 { state.1 with willing } := ⟨fun _ => Iff.rfl, rfl⟩
    refine ⟨governed.opened, governed.limited, governed.bounded, governed.numbered, governed.made,
      governed.own, governed.newest, governed.exclusive, governed.stale, fun phase member => ?_,
      fun latest member => ?_⟩
    · exact (governed.truthful phase member).still same id (fun _ => rfl) rfl
    · exact (governed.settled latest member).imp_right (And.imp_left fun applied =>
        applied.congr same rfl)

/-- **The latest settings win**, if each task that puts media on the senders has ended when
the next decides, and the latest call does not find itself stale. -/
theorem applied_of_quiescent {sender : Slot → Option (Option Track)} {willing : Op → Bool}
    {pool : mediaTasks.Pool}
    (run : Reaches Ordered (startedPool settings sender willing) pool)
    (quiescent : pool.Quiescent) :
    ∀ latest ∈ pool.state.2.latest, Applied pool.state latest := by
  have opened : governing.Holds (startedPool settings sender willing) := by
    have only {p : Phase → Prop}
      (first : p { task := .start settings, call := 0, generation := 1 }) :
        ∀ phase ∈ phases (startedPool settings sender willing).threads, p phase := by
      intro phase member
      cases Multiset.mem_singleton.mp member
      exact first
    have limited : 1 ≤ WebRtcRoomSession.generationMax := by decide
    refine ⟨⟨rfl, limited, only fun _ => Nat.le_refl 1, only Nat.zero_lt_one, by rintro _ ⟨⟩,
      only (by rintro _ ⟨⟩), fun _ => only fun _ _ => by rintro _ ⟨⟩, ?_, only (by rintro ⟨⟩),
      only ((if_neg Bool.false_ne_true).mpr ⟨fun _ => rfl, rfl⟩), by rintro _ ⟨⟩⟩, ?_⟩
    · exact Multiset.countP_le_card _ _
    · rintro thread member
      cases List.mem_singleton.mp member
      have safe := @task_governed { task := .start settings, call := 0, generation := 1 }
        (.start settings) rfl
      refine safe.mono ?_
      exact fun phase _ done state others governed => Governed.finish governed done
  intro latest member
  have inv := (opened.reaches governing_stable run).quiescent quiescent
  refine (inv.settled latest member).elim ?_ And.left
  rintro ⟨phase, listed, -⟩
  cases Multiset.notMem_zero _ listed

end

/-! ## Two calls -/

/-- The test of `Ordered`. -/
def ordered (state : WebRtcRoomSession × Calls) (phase : Phase) (others : Multiset Phase) :
    Op → Bool
  | .isStale generation => decide (state.1.mediaGeneration < WebRtcRoomSession.generationMax ∧
      if state.1.isStale generation = true then
        ∀ latest ∈ state.2.latest, latest.call ≠ phase.call
      else phase.LastCheck → ∀ other ∈ others, Phase.decided other = false)
  | .close => false
  | .newAudioContext | .connectGain _ => true
  | op => decide ((∃ settings, phase.task = .start settings) ∨ state.1.willing op = true)

/-- The test computes the condition. -/
theorem ordered_iff {state : WebRtcRoomSession × Calls} {phase : Phase} {others : Multiset Phase}
    {op : Op} : ordered state phase others op = true ↔ Ordered state phase op others := by
  cases op with
  | close => exact iff_of_false Bool.false_ne_true id
  | newAudioContext | connectGain => exact iff_of_true rfl trivial
  | _ => exact decide_eq_true_iff

instance : ∀ state phase op others, Decidable (Ordered state phase op others) :=
  fun _ _ _ _ => decidable_of_iff _ ordered_iff

/-- The microphone is switched on after the first offer. -/
theorem applied_of_quiescent_on : ∃ pool,
    Reaches Ordered (startedPool allOff threeSenders fun _ => true) pool ∧
      pool.state.2.latest = some ⟨1, micOn⟩ ∧ Applied pool.state ⟨1, micOn⟩ := by
  have replayed : (mediaSampler.replay Ordered (List.replicate 6 (0, []))
      (startedPool allOff threeSenders fun _ => true)).any (fun pool =>
        (mediaSampler.replay Ordered (List.replicate 13 (0, [microphone]))
          (spawn (.apply micOn) pool)).any fun pool =>
            pool.threads.isEmpty ∧ pool.state.2.latest = some ⟨1, micOn⟩) = true := by
    decide +kernel
  obtain ⟨first, offered, passed⟩ := Sampler.exists_of_replay replayed
  obtain ⟨pool, applied, passed⟩ := Sampler.exists_of_replay passed
  obtain ⟨quiescent, latest⟩ := of_decide_eq_true passed
  have run := offered.trans (.head (apply_step first micOn) applied)
  exact ⟨pool, run, latest,
    applied_of_quiescent run (List.isEmpty_iff.mp quiescent) _ latest⟩

/-- **A muted microphone keeps sending**: the call that mutes it has ended when the one before
puts its track on the sender. -/
theorem sends_when_muted : ∃ pool : mediaTasks.Pool,
    Reaches unguarded (startedPool allOff threeSenders fun op => op ≠ .newAudioContext) pool ∧
      pool.Quiescent ∧
      pool.state.2.latest = some ⟨2, allOff⟩ ∧ pool.state.1.closed = false ∧
        pool.state.1.Carries .audio ∧ pool.state.1.localStream ≠ none := by
  have replayed : (mediaSampler.replay unguarded (List.replicate 6 (0, []))
      (startedPool allOff threeSenders fun op => op ≠ .newAudioContext)).any (fun pool =>
        (mediaSampler.replay unguarded (List.replicate 6 (0, [microphone]))
          (spawn (.apply micOn) pool)).any fun pool =>
            (mediaSampler.replay unguarded (List.replicate 13 (0, []))
              (spawn (.apply allOff) pool)).any fun pool =>
                pool.threads.isEmpty ∧ pool.state.2.latest = some ⟨2, allOff⟩ ∧
                  pool.state.1.closed = false ∧
                    ((pool.state.1.sender .audio).bind id).isSome ∧
                      pool.state.1.localStream.isSome) = true := by
    decide +kernel
  obtain ⟨first, offered, passed⟩ := Sampler.exists_of_replay replayed
  obtain ⟨second, waiting, passed⟩ := Sampler.exists_of_replay passed
  obtain ⟨pool, muted, passed⟩ := Sampler.exists_of_replay passed
  obtain ⟨quiescent, latest, opened, carries, stored⟩ := of_decide_eq_true passed
  refine ⟨pool, ?_, List.isEmpty_iff.mp quiescent, latest, opened, ?_, ?_⟩
  · exact offered.trans (.head (apply_step first micOn)
      (waiting.trans (.head (apply_step second allOff) muted)))
  · obtain ⟨track, held⟩ := Option.isSome_iff_exists.mp carries
    obtain ⟨sender, found, rfl⟩ := Option.bind_eq_some_iff.mp held
    exact ⟨track, found⟩
  · exact Option.isSome_iff_ne_none.mp stored

end Callifornia.Client
