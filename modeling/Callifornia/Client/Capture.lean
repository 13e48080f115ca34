import Callifornia.Client.Footprint

/-! # Captured tracks

A track that `getUserMedia` has returned is in the hands of a task until the task stops it
or stores its stream. Stored tracks are stopped when the stream is swapped or dropped, and
when the session closes.
-/

namespace Callifornia.Client

open Concurrency Concurrency.System

/-- The microphone is not routed through a gain node, no stream is stored once the session
is closed, and the first task finds none that it would overwrite. -/
def Tidy : mediaTasks.Guard :=
  fun (state : WebRtcRoomSession × Calls) _ op _ =>
    match op with
    | .connectGain gain => state.1.willing (.connectGain gain) = false
    | .swapLocalStream _ => state.1.closed = false
    | .setLocalStream _ => state.1.closed = false ∧ state.1.localStream = none
    | _ => True

/-- A captured track has been stopped, or a task has it in hand, or it is stored in a
session that is open. -/
def Accounted (state : WebRtcRoomSession × Calls) (phases : Multiset Phase) : Prop :=
  ∀ track ∈ state.1.captured, track ∈ state.1.stopped ∨
    (∃ phase ∈ phases, track ∈ phase.owed) ∨
      state.1.closed = false ∧ ∃ stream, state.1.localStream = some stream ∧ track ∈ stream

/-- The outline of the captured tracks. -/
def accounting : Outline mediaTasks where
  guard := Tidy
  inv := Accounted
  asserts _ _ _ := True

/-- The step neither acquires tracks nor takes them out of the task's hands. -/
def Op.Holds : Op → Prop
  | .getUserMedia .. | .stopAllTracks _ | .setLocalStream _ | .swapLocalStream _ => False
  | _ => True

section

variable {state after : WebRtcRoomSession × Calls} {phase phase' : Phase}
  {others : Multiset Phase} {settings : MediaSettings}

/-- A step that neither acquires nor gives away a track leaves what is owed. -/
theorem advance_owed {op : Op} (holds : op.Holds) (phase : Phase) (reply : op.Reply) :
    (phase.advance op reply).owed = phase.owed := by
  cases op with
  | getUserMedia audio video => exact holds.elim
  | stopAllTracks stream => exact holds.elim
  | setLocalStream stream => exact holds.elim
  | swapLocalStream stream => exact holds.elim
  | isStale generation => cases reply <;> rfl
  | hasSender slot => cases reply <;> rfl
  | replaceTrack slot track => cases reply <;> rfl
  | addTrack slot track => cases reply <;> rfl
  | sendSdp sdp => cases reply <;> rfl
  | _ => rfl

/-- A check of the generation leaves what is owed. -/
theorem checked_owed (phase : Phase) (stale : Bool) : (phase.checked stale).owed = phase.owed := by
  cases stale <;> rfl

/-- Every track is found again after a step of this phase. -/
theorem Accounted.turn (accounted : Accounted state (phase ::ₘ others))
    (captured : ∀ track ∈ after.1.captured, track ∈ state.1.captured ∨ track ∈ phase'.owed)
    (stopped : state.1.stopped ⊆ after.1.stopped)
    (owed : ∀ track ∈ phase.owed, track ∈ after.1.stopped ∨ track ∈ phase'.owed ∨
      after.1.closed = false ∧ ∃ stream, after.1.localStream = some stream ∧ track ∈ stream)
    (stored : ∀ stream, state.1.localStream = some stream → state.1.closed = false →
      (∀ track ∈ stream, track ∈ after.1.stopped) ∨
        after.1.closed = false ∧ after.1.localStream = some stream) :
    Accounted after (phase' ::ₘ others) := by
  intro track member
  rcases captured track member with old | new
  · rcases accounted track old with done | ⟨holder, listed, holds⟩ | ⟨opened, stream, kept, inside⟩
    · exact .inl (stopped done)
    · rcases Multiset.mem_cons.mp listed with rfl | later
      · rcases owed track holds with done | own | kept
        · exact .inl done
        · exact .inr (.inl ⟨phase', Multiset.mem_cons_self _ _, own⟩)
        · exact .inr (.inr kept)
      · exact .inr (.inl ⟨holder, Multiset.mem_cons_of_mem later, holds⟩)
    · rcases stored stream kept opened with done | ⟨opened, kept⟩
      · exact .inl (done track inside)
      · exact .inr (.inr ⟨opened, stream, kept, inside⟩)
  · exact .inr (.inl ⟨phase', Multiset.mem_cons_self _ _, new⟩)

/-- The step has to do with captured tracks. -/
def Op.Moves : Op → Prop
  | .getUserMedia .. | .stopAllTracks _ | .setLocalStream _ | .swapLocalStream _
  | .dropLocalStream | .swapScreenStream _ | .dropScreenStream | .close => True
  | _ => False

/-- A step that has nothing to do with captured tracks takes none out of the task's hands. -/
theorem holds_of_still {op : Op} (still : ¬ op.Moves) : op.Holds := by
  cases op <;> first | trivial | exact absurd trivial still

/-- Other steps leave the tracks and the stored stream as they are. -/
theorem still_exec {op : Op} (still : ¬ op.Moves) {session session' : WebRtcRoomSession}
    {reply : op.Reply} (effect : exec op session reply session') :
    session'.captured = session.captured ∧ session'.stopped = session.stopped ∧
      session'.localStream = session.localStream ∧ session'.closed = session.closed := by
  cases op with
  | connectGain gain =>
      have effect : if session.willing (.connectGain gain) = true then _ else _ := effect
      split at effect <;> obtain ⟨-, rfl⟩ := effect <;> exact ⟨rfl, rfl, rfl, rfl⟩
  | replaceTrack slot track =>
      obtain ⟨-, rfl⟩ := effect
      split <;> exact ⟨rfl, rfl, rfl, rfl⟩
  | addTrack slot track =>
      obtain ⟨-, rfl⟩ := effect
      split <;> exact ⟨rfl, rfl, rfl, rfl⟩
  | sendSdp sdp =>
      obtain ⟨-, rfl⟩ := effect
      split <;> exact ⟨rfl, rfl, rfl, rfl⟩
  | _ =>
      first
        | exact absurd trivial still
        | cases effect; exact ⟨rfl, rfl, rfl, rfl⟩
        | obtain ⟨-, rfl⟩ := effect; exact ⟨rfl, rfl, rfl, rfl⟩

/-- What is taken out of the task's hands has gone to the stream. -/
theorem mem_settles {stream : Stream} {track : Track} (owed : track ∈ phase.owed) :
    track ∈ stream ∨ track ∈ (phase.settles stream).owed := by
  by_cases inside : track ∈ stream
  · exact .inl inside
  · exact .inr (List.mem_filter.mpr ⟨owed, decide_eq_true inside⟩)

/-- **Step lemma.** No step loses a track. -/
theorem Accounted.step (accounted : Accounted state (phase ::ₘ others)) {op : Op}
    {reply : op.Reply} (tidy : Tidy state phase op others)
    (effect : mediaTasks.exec op state reply after) :
    Accounted after (phase.advance op reply ::ₘ others) := by
  obtain ⟨session, calls⟩ := state
  obtain ⟨session', calls'⟩ := after
  obtain ⟨effect, -⟩ := effect
  have more (stream : Option Stream) : session.stopped ⊆ (session.stopIfAny stream).stopped :=
    Finset.subset_union_left
  have stops {stream : Stream} {track : Track} (inside : track ∈ stream) :
      track ∈ (session.stopAllTracks stream).stopped :=
    Finset.mem_union_right _ (List.mem_toFinset.mpr inside)
  have local_stops {stream : Stream} (kept : session.localStream = some stream) (track : Track)
      (inside : track ∈ stream) : track ∈ (session.stopIfAny session.localStream).stopped := by
    rw [kept]
    exact stops inside
  by_cases moves : op.Moves
  case neg =>
    obtain ⟨captured, stopped, stored, closed⟩ := still_exec moves effect
    refine accounted.turn (fun track member => .inl (captured ▸ member))
      (fun track done => stopped.symm ▸ done) (fun track owed => .inr (.inl ?_))
      fun stream kept opened => .inr ⟨closed.trans opened, stored.trans kept⟩
    rw [advance_owed (holds_of_still moves)]
    exact owed
  cases op with
  | getUserMedia audio video =>
      obtain ⟨-, effect⟩ := effect
      cases reply with
      | ok stream =>
          obtain ⟨-, -, -, -, rfl⟩ := effect
          refine accounted.turn (fun track member => ?_) (Finset.Subset.refl _)
            (fun track owed => .inr (.inl (List.mem_append_left _ owed)))
            fun _ kept opened => .inr ⟨opened, kept⟩
          exact (Finset.mem_union.mp member).imp_right fun new =>
            List.mem_append_right _ (List.mem_toFinset.mp new)
      | error err =>
          cases (show session' = session from effect)
          exact accounted
  | stopAllTracks stream =>
      cases effect
      exact accounted.turn (fun _ => .inl) (more (some stream))
        (fun track owed => (mem_settles owed).imp stops .inl)
        fun _ kept opened => .inr ⟨opened, kept⟩
  | setLocalStream stream =>
      obtain ⟨opened, free⟩ := tidy
      cases effect
      refine accounted.turn (fun _ => .inl) (Finset.Subset.refl _) (fun track owed => .inr ?_)
        fun _ kept _ => ?_
      · exact (mem_settles owed).symm.imp_right fun inside => ⟨opened, stream, rfl, inside⟩
      · cases free.symm.trans kept
  | swapLocalStream stream =>
      cases effect
      refine accounted.turn (fun _ => .inl) (more session.localStream) (fun track owed => .inr ?_)
        fun _ kept _ => .inl (local_stops kept)
      exact (mem_settles owed).symm.imp_right fun inside => ⟨tidy, stream, rfl, inside⟩
  | dropLocalStream =>
      cases effect
      exact accounted.turn (fun _ => .inl) (more session.localStream)
        (fun _ owed => .inr (.inl owed)) fun _ kept _ => .inl (local_stops kept)
  | swapScreenStream stream =>
      cases effect
      exact accounted.turn (fun _ => .inl) (more session.screenStream)
        (fun _ owed => .inr (.inl owed)) fun _ kept opened => .inr ⟨opened, kept⟩
  | dropScreenStream =>
      cases effect
      exact accounted.turn (fun _ => .inl) (more session.screenStream)
        (fun _ owed => .inr (.inl owed)) fun _ kept opened => .inr ⟨opened, kept⟩
  | close =>
      cases effect
      refine accounted.turn (fun _ => .inl) (fun track done => ?_)
        (fun _ owed => .inr (.inl owed)) fun stream kept _ => .inl fun track inside => ?_
      · exact Finset.mem_union_left _ (Finset.mem_union_left _ done)
      · exact Finset.mem_union_left _ (local_stops kept track inside)
  | _ => exact moves.elim

/-- A step, and what comes after it. -/
theorem accounting_call {α : Type} {post : Phase → α → Prop} {op : Op}
    {next : op.Reply → Call α}
    (rest : ∀ state reply after others, Tidy state phase op others →
      mediaTasks.exec op state reply after →
      accounting.Safe post (phase.advance op reply) (next reply)) :
    accounting.Safe post phase (.call op next) := by
  intro state others inv allowed
  exact ⟨trivial, fun reply after effect =>
    ⟨Accounted.step inv allowed effect, rest state reply after others allowed effect⟩⟩

/-- A part of a task that keeps its hands off the tracks. -/
theorem holding_safe {α : Type} {program : Call α} (only : program.Only Op.Holds) :
    accounting.Safe (fun last _ => Phase.owed last = phase.owed) phase program := by
  refine Outline.Safe.of_steps ?_ only rfl
  intro op now holds own state others inv allowed
  exact ⟨trivial, fun reply after effect =>
    ⟨Accounted.step inv allowed effect, (advance_owed holds now reply).trans own⟩⟩

/-! ## The tasks -/

/-- The steps of an offer take no track out of the task's hands. -/
theorem Op.Offers.holds {op : Op} (offers : op.Offers) : op.Holds := by
  cases op <;> trivial

/-- Nor do the steps that see to a sender. -/
theorem Op.Sends.holds {op : Op} {slot : Slot} (sends : op.Sends slot) : op.Holds := by
  cases op <;> trivial

/-- Nor does the whole offer. -/
theorem sendLocalOffer_holds : sendLocalOffer.Only Op.Holds :=
  sendLocalOffer_only.mono fun _ => Op.Offers.holds

/-- Nor does the switching of a track. -/
theorem switchTrack_holds (kind : Kind) (enabled : Bool) (track : Option Track) :
    (switchTrack kind enabled track).Only Op.Holds :=
  (switchTrack_only kind enabled track).mono fun _ => Op.Sends.holds

/-- Nor does the muting of all tracks. -/
theorem muteAll_holds : muteAll.Only Op.Holds := by
  have mutes (kind : Kind) : (muteSender kind).Only Op.Holds :=
    (muteSender_only kind).mono fun _ => Op.Sends.holds
  exact ⟨trivial, fun _ => (mutes .audio).bind fun _ => (mutes .video).bind fun _ =>
    ⟨trivial, fun _ => trivial⟩⟩

/-- What `getUserMedia` returns is in the hands of the task. -/
theorem getUserMedia_safe {micEnabled cameraEnabled : Bool}
    {micDeviceId cameraDeviceId : Text.Chars}
    (owed : phase.owed = []) :
    accounting.Safe (fun last media => Phase.owed last = match media with
      | .ok stream => stream
      | .error _ => []) phase
      (getUserMedia micEnabled cameraEnabled micDeviceId cameraDeviceId) := by
  unfold getUserMedia
  split
  · exact owed
  · refine accounting_call fun _ media _ _ _ _ => ?_
    cases media with
    | error err => exact owed
    | ok stream => exact congrArg (· ++ stream) owed

/-- Without a gain node, the stream for the connection has the captured tracks. -/
theorem process_safe (raw : Stream) (inputLevel : ℕ) :
    accounting.Safe (fun last stream => stream = raw ∧ Phase.owed last = phase.owed) phase
      (processLocalMediaForSend raw inputLevel) := by
  refine accounting_call fun _ _ _ _ _ _ => Outline.Safe.bind (Outline.safe_ret.mpr ?_)
  split
  · exact ⟨rfl, rfl⟩
  · refine accounting_call fun _ works _ _ _ _ => ?_
    cases works with
    | false => exact ⟨rfl, rfl⟩
    | true =>
        refine accounting_call fun _ _ _ _ _ _ => ?_
        refine accounting_call fun state node after others tidy effect => ?_
        have refused : ¬ state.1.willing (.connectGain (levelToGain inputLevel)) = true :=
          Bool.eq_false_iff.mp tidy
        obtain ⟨rfl, -⟩ : node = none ∧ after.1 = state.1 := (if_neg refused).mp effect.1
        exact ⟨rfl, rfl⟩

/-- What has been captured is out of the task's hands in the end. -/
theorem settles_owed {stream : Stream} (owed : phase.owed = stream) :
    (phase.settles stream).owed = [] := by
  rw [Phase.settles, owed]
  refine List.filter_eq_nil_iff.mpr fun track member => ?_
  simpa using member

/-- A stream that is sent is stored or stopped, and is owed no more. -/
theorem sendMedia_safe (stream : Stream) (owed : phase.owed = stream) :
    accounting.Safe (fun last _ => Phase.owed last = []) phase (sendMedia settings stream) := by
  have stops {phase : Phase} (owed : phase.owed = stream) :
      accounting.Safe (fun last _ => Phase.owed last = []) phase (issue (.stopAllTracks stream)) :=
    accounting_call fun _ _ _ _ _ _ => settles_owed owed
  have swaps {phase : Phase} (owed : phase.owed = stream) :
      accounting.Safe (fun last _ => Phase.owed last = []) phase
        (issue (.swapLocalStream stream)) :=
    accounting_call fun _ _ _ _ _ _ => settles_owed owed
  refine Outline.Safe.bind ((process_safe stream settings.inputLevel).mono ?_)
  rintro phase _ ⟨rfl, kept⟩
  have owed := kept.trans owed
  refine Outline.Safe.bind
    ((holding_safe (switchTrack_holds _ _ _)).mono fun phase added kept => ?_)
  have owed := kept.trans owed
  cases added with
  | none => exact stops owed
  | some audioAdded =>
      refine Outline.Safe.bind
        ((holding_safe (switchTrack_holds _ _ _)).mono fun phase added kept => ?_)
      have owed := kept.trans owed
      cases added with
      | none => exact stops owed
      | some videoAdded =>
          change accounting.Safe _ phase (ite ..)
          split
          · refine Outline.Safe.bind
              ((holding_safe sendLocalOffer_holds).mono fun phase sent kept => ?_)
            have owed := kept.trans owed
            cases sent with
            | ok => exact swaps owed
            | error err =>
                exact accounting_call fun _ _ _ _ _ _ => Outline.Safe.bind (stops owed)
          · exact swaps owed

/-- A start accounts for every track it captures. -/
theorem start_accounted (generation : ℕ) (owed : phase.owed = []) :
    accounting.Safe (fun last _ => Phase.owed last = []) phase (start generation settings) := by
  have offers {phase : Phase} (owed : phase.owed = []) :
      accounting.Safe (fun last _ => Phase.owed last = []) phase firstOffer :=
    (holding_safe (firstOffer_only.mono fun _ => Op.Offers.holds)).mono fun _ _ kept =>
    kept.trans owed
  refine accounting_call fun state stale after others _ _ => ?_
  have owed := (checked_owed phase stale).trans owed
  refine Outline.Safe.bind (Outline.safe_ret.mpr ?_)
  cases stale with
  | true => exact owed
  | false =>
      refine Outline.Safe.bind ((getUserMedia_safe owed).mono fun phase media acquired => ?_)
      cases media with
      | error err =>
          exact accounting_call fun _ _ _ _ _ _ => Outline.Safe.bind (offers acquired)
      | ok stream =>
          refine accounting_call fun state stale after others _ _ => ?_
          have owed := (checked_owed phase stale).trans acquired
          refine Outline.Safe.bind (Outline.safe_ret.mpr ?_)
          cases stale with
          | true => exact accounting_call fun _ _ _ _ _ _ => settles_owed owed
          | false =>
              refine Outline.Safe.bind ((process_safe stream settings.inputLevel).mono ?_)
              rintro phase streamForPc ⟨rfl, kept⟩
              have owed := kept.trans owed
              have attaches : (streamForPc.forM attachTrack).Only Op.Holds :=
                Program.Only.forM fun track _ =>
                  (attachTrack_only track).mono fun _ => Op.Sends.holds
              refine Outline.Safe.bind ((holding_safe attaches).mono fun phase _ kept => ?_)
              exact accounting_call fun _ _ _ _ _ _ =>
                Outline.Safe.bind (offers (settles_owed (kept.trans owed)))

/-- Applying the local media accounts for every track it captures. -/
theorem applyLocalMedia_accounted (generation : ℕ) (owed : phase.owed = []) :
    accounting.Safe (fun last _ => Phase.owed last = []) phase
      (applyLocalMedia generation settings) := by
  refine accounting_call fun state stale after others _ _ => ?_
  have owed := (checked_owed phase stale).trans owed
  refine Outline.Safe.bind (Outline.safe_ret.mpr ?_)
  cases stale with
  | true => exact owed
  | false =>
      simp only [Bool.false_eq_true, if_false]
      split
      · exact (holding_safe muteAll_holds).mono fun _ _ kept => kept.trans owed
      · refine Outline.Safe.bind ((getUserMedia_safe owed).mono fun phase media acquired => ?_)
        cases media with
        | error err => exact accounting_call fun _ _ _ _ _ _ => acquired
        | ok stream =>
            refine accounting_call fun state stale after others _ _ => ?_
            have owed := (checked_owed phase stale).trans acquired
            refine Outline.Safe.bind (Outline.safe_ret.mpr ?_)
            cases stale with
            | true => exact accounting_call fun _ _ _ _ _ _ => settles_owed owed
            | false => exact sendMedia_safe stream owed

/-- The step acquires no tracks. -/
def Op.Frugal : Op → Prop
  | .getUserMedia .. => False
  | _ => True

/-- A task that acquires nothing has nothing in its hands. -/
theorem frugal_safe {α : Type} {program : Call α} (only : program.Only Op.Frugal)
    (owed : phase.owed = []) :
    accounting.Safe (fun last _ => Phase.owed last = []) phase program := by
  refine Outline.Safe.of_steps ?_ only owed
  intro op (now : Phase) frugal owed state others inv allowed
  refine ⟨trivial, fun reply after effect => ⟨Accounted.step inv allowed effect, ?_⟩⟩
  have settled (stream : Stream) : (now.settles stream).owed = [] :=
    congrArg (List.filter fun track => decide (track ∉ stream)) owed
  cases op with
  | getUserMedia audio video => exact frugal.elim
  | stopAllTracks stream => exact settled stream
  | setLocalStream stream => exact settled stream
  | swapLocalStream stream => exact settled stream
  | _ =>
      first
        | exact owed
        | cases reply <;> exact owed

/-- A step of a screen sharing task acquires no tracks. -/
theorem Op.Shares.frugal {op : Op} {generation : ℕ} (shares : op.Shares generation) :
    op.Frugal := by
  cases op <;> trivial

/-- Every task of the room accounts for every track it captures. -/
theorem task_accounted (generation : ℕ) (task : Task) (owed : phase.owed = []) :
    accounting.Safe (fun last _ => Phase.owed last = []) phase (task.program generation) := by
  cases task with
  | start settings => exact start_accounted generation owed
  | apply settings => exact applyLocalMedia_accounted generation owed
  | publish stream track =>
      exact frugal_safe ((publishScreenShare_only generation stream track).mono
        fun _ => Op.Shares.frugal) owed
  | stop =>
      exact frugal_safe ((stopScreenShare_only generation).mono fun _ => Op.Shares.frugal) owed
  | close => exact frugal_safe ⟨trivial, fun _ => trivial⟩ owed

/-- A task with nothing in its hands may end. -/
theorem Accounted.finish (accounted : Accounted state (phase ::ₘ others))
    (owed : phase.owed = []) : Accounted state others := by
  intro track member
  refine (accounted track member).imp_right (Or.imp_left ?_)
  rintro ⟨holder, listed, holds⟩
  rcases Multiset.mem_cons.mp listed with rfl | later
  · rw [owed] at holds
    cases holds
  · exact ⟨holder, later, holds⟩

/-- The account is kept by the steps of the other tasks. -/
theorem accounting_stable : accounting.Stable where
  start := by
    rintro state others phase program after ⟨task, -, -, rfl, rfl, rfl⟩ accounted
    constructor
    · intro track member
      have same : (if task = .close then state.1 else { state.1 with
          mediaGeneration := state.1.nextGeneration }).captured = state.1.captured := by
        split <;> rfl
      rcases accounted track (same ▸ member) with done | ⟨holder, listed, holds⟩ | kept
      · left
        split <;> exact done
      · exact .inr (.inl ⟨holder, Multiset.mem_cons_of_mem listed, holds⟩)
      · refine .inr (.inr ?_)
        split <;> exact kept
    · refine (task_accounted _ task rfl).mono ?_
      exact fun phase _ owed state others accounted => Accounted.finish accounted owed
  discard _ _ _ never := never.elim
  environment := by
    rintro state others after ⟨willing, rfl⟩ accounted
    exact accounted

/-- **Leaving stops capture**, if the microphone is never routed through a gain node, no
task stores its stream after the close, and the first task overwrites no stream. -/
theorem captured_subset_stopped {sender : Slot → Option (Option Track)} {willing : Op → Bool}
    {pool : mediaTasks.Pool} (run : Reaches Tidy (startedPool settings sender willing) pool)
    (quiescent : pool.Quiescent) (closed : pool.state.1.closed = true) :
    pool.state.1.captured ⊆ pool.state.1.stopped := by
  have opened : accounting.Holds (startedPool settings sender willing) := by
    refine ⟨fun track member => absurd member (Finset.notMem_empty _), fun thread member => ?_⟩
    cases List.mem_singleton.mp member
    refine (task_accounted 1 (.start settings) rfl).mono ?_
    exact fun phase _ owed state others accounted => Accounted.finish accounted owed
  have inv := (opened.reaches accounting_stable run).quiescent quiescent
  intro track member
  rcases inv track member with done | ⟨phase, listed, -⟩ | ⟨opened, -⟩
  · exact done
  · cases Multiset.notMem_zero _ listed
  · cases opened.symm.trans closed

end

/-! ## A session with a microphone -/

instance : ∀ state phase op others, Decidable (Tidy state phase op others) := by
  intro (state : WebRtcRoomSession × Calls) phase op others
  unfold Tidy
  split <;> infer_instance

/-- Without Web Audio the microphone is stopped. -/
theorem captured_subset_stopped_plain : ∃ pool,
    Reaches Tidy (startedPool micOn threeSenders fun op => op ≠ .newAudioContext) pool ∧
      microphone ∈ pool.state.1.captured ∧ pool.state.1.captured ⊆ pool.state.1.stopped := by
  have replayed : (((mediaSampler.replay Tidy (List.replicate 12 (0, [microphone]))
      (startedPool micOn threeSenders fun op => op ≠ .newAudioContext)).map
        (spawn .close)).bind (mediaSampler.replay Tidy (List.replicate 2 (0, [])))).any
        (fun pool => pool.threads.isEmpty ∧ pool.state.1.closed = true ∧
          microphone ∈ pool.state.1.captured) = true := by
    decide +kernel
  obtain ⟨pool, run, passed⟩ := exists_of_replay_close replayed
  obtain ⟨quiescent, closed, captured⟩ := of_decide_eq_true passed
  exact ⟨pool, run, captured,
    captured_subset_stopped run (List.isEmpty_iff.mp quiescent) closed⟩

/-- Every construction of an audio context fails. -/
def WithoutWebAudio : mediaTasks.Guard :=
  fun (state : WebRtcRoomSession × Calls) _ op _ =>
    op = .newAudioContext → state.1.willing .newAudioContext = false

instance : ∀ state phase op others, Decidable (WithoutWebAudio state phase op others) := by
  intro (state : WebRtcRoomSession × Calls) phase op others
  unfold WithoutWebAudio
  infer_instance

/-- **The microphone outlives the call**: a task that is past its last check when the
session closes stores its stream after the close, and nothing stops it any more. -/
theorem stored_after_close : ∃ pool : mediaTasks.Pool,
    Reaches WithoutWebAudio (startedPool allOff threeSenders fun op => op ≠ .newAudioContext)
      pool ∧ pool.Quiescent ∧ pool.state.1.closed = true ∧
        ¬ pool.state.1.captured ⊆ pool.state.1.stopped := by
  have replayed : (mediaSampler.replay WithoutWebAudio (List.replicate 6 (0, []))
      (startedPool allOff threeSenders fun op => op ≠ .newAudioContext)).any (fun pool =>
        (((mediaSampler.replay WithoutWebAudio (List.replicate 9 (0, [microphone]))
          (spawn (.apply micOn) pool)).map (spawn .close)).bind
            (mediaSampler.replay WithoutWebAudio (List.replicate 4 (0, [])))).any fun pool =>
              pool.threads.isEmpty ∧ pool.state.1.closed = true ∧
                microphone ∈ pool.state.1.captured ∧
                  microphone ∉ pool.state.1.stopped) = true := by
    decide +kernel
  obtain ⟨first, offered, passed⟩ := Sampler.exists_of_replay replayed
  obtain ⟨pool, run, passed⟩ := exists_of_replay_close passed
  obtain ⟨quiescent, closed, captured, running⟩ := of_decide_eq_true passed
  exact ⟨pool, offered.trans (.head (apply_step first micOn) run),
    List.isEmpty_iff.mp quiescent, closed, fun all => running (all captured)⟩

end Callifornia.Client
