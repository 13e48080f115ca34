import Callifornia.Client.MediaTasks

/-! # The first offer

The first offer of a session comes at the end of its first task, which ends early when it
finds that the generation has moved.
-/

namespace Callifornia.Client

open Concurrency Concurrency.System

/-- The first task is not stale when it checks, and every call to the browser succeeds, but
for `getUserMedia`. -/
def Unhurried : mediaTasks.Guard :=
  fun (state : WebRtcRoomSession × Calls) (phase : Phase) op _ =>
    match op with
    | .isStale generation => (∃ settings, phase.task = .start settings) →
        state.1.isStale generation = false
    | .getUserMedia .. => True
    | op => state.1.willing op = true

/-- An offer has been sent, or the first task is still to send it. -/
structure Offering (state : WebRtcRoomSession × Calls) (phases : Multiset Phase) : Prop where
  sent : ∀ phase ∈ phases, phase.offered = true → state.1.offers ≠ []
  pending : state.1.offers ≠ [] ∨ ∃ phase ∈ phases, ∃ settings, phase.task = .start settings

/-- The outline of the first offer. -/
def offering : Outline mediaTasks where
  guard := Unhurried
  inv := Offering
  asserts _ _ _ := True

section

variable {state after : WebRtcRoomSession × Calls} {phase : Phase} {others : Multiset Phase}
  {settings : MediaSettings}

theorem advance_task (phase : Phase) (op : Op) (reply : op.Reply) :
    (phase.advance op reply).task = phase.task := by
  cases op with
  | isStale generation => cases reply <;> rfl
  | getUserMedia audio video => cases reply <;> rfl
  | hasSender slot => cases reply <;> rfl
  | replaceTrack slot track => cases reply <;> rfl
  | addTrack slot track => cases reply <;> rfl
  | sendSdp sdp => cases reply <;> rfl
  | _ => rfl

/-- Only sending an offer changes the offers, and what the task knows of them. -/
theorem offers_exec {op : Op} {session session' : WebRtcRoomSession} {reply : op.Reply}
    (effect : exec op session reply session') (other : ∀ sdp, op ≠ .sendSdp sdp) :
    session'.offers = session.offers ∧ (phase.advance op reply).offered = phase.offered := by
  cases op with
  | sendSdp sdp => exact absurd rfl (other sdp)
  | isStale generation =>
      obtain ⟨-, rfl⟩ := effect
      cases reply <;> exact ⟨rfl, rfl⟩
  | getUserMedia audio video =>
      obtain ⟨-, effect⟩ := effect
      cases reply with
      | ok stream =>
          obtain ⟨-, -, -, -, rfl⟩ := effect
          exact ⟨rfl, rfl⟩
      | error err =>
          cases (show session' = session from effect)
          exact ⟨rfl, rfl⟩
  | connectGain gain =>
      have effect : if session.willing (.connectGain gain) = true then _ else _ := effect
      split at effect <;> obtain ⟨-, rfl⟩ := effect <;> exact ⟨rfl, rfl⟩
  | hasSender slot =>
      obtain ⟨-, rfl⟩ := effect
      cases reply <;> exact ⟨rfl, rfl⟩
  | replaceTrack slot track =>
      obtain ⟨-, rfl⟩ := effect
      cases reply <;> exact ⟨rfl, rfl⟩
  | addTrack slot track =>
      obtain ⟨-, rfl⟩ := effect
      cases reply <;> exact ⟨rfl, rfl⟩
  | _ =>
      first
        | cases effect; exact ⟨rfl, rfl⟩
        | obtain ⟨-, rfl⟩ := effect; exact ⟨rfl, rfl⟩

/-- **Step lemma.** No step takes an offer back. -/
theorem Offering.step (offering : Offering state (phase ::ₘ others)) {op : Op} {reply : op.Reply}
    (effect : mediaTasks.exec op state reply after) :
    Offering after (phase.advance op reply ::ₘ others) := by
  obtain ⟨effect, -⟩ := effect
  obtain ⟨sent, pending⟩ := offering
  by_cases sends : ∃ sdp, op = .sendSdp sdp
  · obtain ⟨sdp, rfl⟩ := sends
    obtain ⟨-, same⟩ := effect
    cases reply with
    | ok =>
        have some : after.1.offers ≠ [] := by
          rw [same]
          exact List.append_ne_nil_of_right_ne_nil _ (List.cons_ne_nil _ _)
        exact ⟨fun _ _ _ => some, .inl some⟩
    | error err =>
        have kept : after.1.offers = state.1.offers := congrArg WebRtcRoomSession.offers same
        exact ⟨kept.symm ▸ sent, kept.symm ▸ pending⟩
  · obtain ⟨offers, offered⟩ :=
      @offers_exec phase op _ _ _ effect fun sdp same => sends ⟨sdp, same⟩
    refine ⟨fun other member given => ?_, ?_⟩
    · rw [offers]
      rcases Multiset.mem_cons.mp member with rfl | later
      · exact sent phase (Multiset.mem_cons_self _ _) (offered ▸ given)
      · exact sent other (Multiset.mem_cons_of_mem later) given
    · rw [offers]
      refine pending.imp_right ?_
      rintro ⟨other, member, settings, own⟩
      rcases Multiset.mem_cons.mp member with rfl | later
      · exact ⟨_, Multiset.mem_cons_self _ _, settings, (advance_task _ _ _).trans own⟩
      · exact ⟨other, Multiset.mem_cons_of_mem later, settings, own⟩

/-- Whatever a task does, it stays the task it is. -/
theorem busy_safe {α : Type} (program : Call α) (task : Task) (own : phase.task = task) :
    offering.Safe (fun last _ => Phase.task last = task) phase program := by
  refine Outline.Safe.of_steps ?_ (Program.only_of_forall (fun _ => trivial) program) own
  intro op phase _ own state others inv _
  exact ⟨trivial, fun reply after effect =>
    ⟨Offering.step inv effect, (advance_task phase op reply).trans own⟩⟩

/-- A step, and what comes after it. -/
theorem offering_call {α : Type} {post : Phase → α → Prop} {op : Op}
    {next : op.Reply → Call α}
    (rest : ∀ state reply after others, Unhurried state phase op others →
      mediaTasks.exec op state reply after →
      offering.Safe post (phase.advance op reply) (next reply)) :
    offering.Safe post phase (.call op next) := by
  intro state others inv allowed
  exact ⟨trivial, fun reply after effect =>
    ⟨Offering.step inv effect, rest state reply after others allowed effect⟩⟩

/-- The browser makes the offer and takes it, and it is sent. -/
theorem sendLocalOffer_safe : offering.Safe (fun last result =>
    result = .ok () ∧ Phase.offered last = true) phase sendLocalOffer := by
  refine offering_call fun state offer after others willing effect => ?_
  cases offer with
  | error err => cases effect.1.1.trans willing
  | ok sdp =>
      refine offering_call fun state set after others willing effect => ?_
      cases set with
      | error err => cases effect.1.1.trans willing
      | ok =>
          refine offering_call fun state sent after others willing effect => ?_
          cases sent with
          | error err => cases effect.1.1.trans willing
          | ok => exact ⟨rfl, rfl⟩

theorem firstOffer_safe :
    offering.Safe (fun last _ => Phase.offered last = true) phase firstOffer := by
  refine Outline.Safe.bind (sendLocalOffer_safe.mono ?_)
  rintro last result ⟨rfl, offered⟩
  exact offered

/-- The first task does not give up. -/
theorem start_safe (generation : ℕ) (own : phase.task = .start settings) :
    offering.Safe (fun last _ => Phase.offered last = true) phase (start generation settings) := by
  refine offering_call fun state stale after others fresh effect => ?_
  obtain rfl : stale = false := effect.1.1.trans (fresh ⟨settings, own⟩)
  have own := (advance_task phase (.isStale generation) false).trans own
  refine Outline.Safe.bind (Outline.safe_ret.mpr ?_)
  refine Outline.Safe.bind ((busy_safe _ _ own).mono fun phase media own => ?_)
  cases media with
  | error err => exact Outline.Safe.bind ((busy_safe _ _ own).mono fun _ _ _ => firstOffer_safe)
  | ok stream =>
      refine offering_call fun state stale after others fresh effect => ?_
      obtain rfl : stale = false := effect.1.1.trans (fresh ⟨settings, own⟩)
      have own := (advance_task phase (.isStale generation) false).trans own
      refine Outline.Safe.bind (Outline.safe_ret.mpr ?_)
      refine Outline.Safe.bind ((busy_safe _ _ own).mono fun phase _ own => ?_)
      refine Outline.Safe.bind ((busy_safe _ _ own).mono fun phase _ own => ?_)
      exact offering_call fun _ _ _ _ _ _ => firstOffer_safe

theorem offering_stable : offering.Stable where
  start := by
    rintro state others phase program after ⟨task, other, -, rfl, rfl, rfl⟩ ⟨sent, pending⟩
    have offers : (if task = .close then state.1 else { state.1 with
        mediaGeneration := state.1.nextGeneration }).offers = state.1.offers := by
      split <;> rfl
    refine ⟨⟨fun phase member given => ?_, ?_⟩, ?_⟩
    · rw [offers]
      rcases Multiset.mem_cons.mp member with rfl | later
      · cases given
      · exact sent phase later given
    · rw [offers]
      refine pending.imp_right ?_
      rintro ⟨phase, member, first⟩
      exact ⟨phase, Multiset.mem_cons_of_mem member, first⟩
    · refine (busy_safe _ task rfl).mono ?_
      rintro phase - own state others ⟨sent, pending⟩
      refine ⟨fun phase member => sent phase (Multiset.mem_cons_of_mem member), ?_⟩
      refine pending.imp_right ?_
      rintro ⟨first, member, settings, starts⟩
      rcases Multiset.mem_cons.mp member with rfl | later
      · exact absurd (own.symm.trans starts) (other settings)
      · exact ⟨first, later, settings, starts⟩
  discard _ _ _ never := never.elim
  environment := by
    rintro state others after ⟨willing, rfl⟩ ⟨sent, pending⟩
    exact ⟨sent, pending⟩

/-- **A session negotiates**, if its first task is not stale at its checks. -/
theorem offers_ne_nil_of_quiescent {sender : Slot → Option (Option Track)} {willing : Op → Bool}
    {pool : mediaTasks.Pool}
    (run : Reaches Unhurried (startedPool settings sender willing) pool)
    (quiescent : pool.Quiescent) : pool.state.1.offers ≠ [] := by
  have opened : offering.Holds (startedPool settings sender willing) := by
    refine ⟨⟨?_, .inr ⟨{ task := .start settings, call := 0, generation := 1 },
      Multiset.mem_coe.mpr (List.mem_singleton_self _), settings, rfl⟩⟩, ?_⟩
    · rintro phase member given
      cases Multiset.mem_singleton.mp member
      cases given
    · rintro thread member
      cases List.mem_singleton.mp member
      refine (start_safe 1 rfl).mono ?_
      rintro phase - offered state others ⟨sent, -⟩
      exact ⟨fun phase member => sent phase (Multiset.mem_cons_of_mem member),
        .inl (sent phase (Multiset.mem_cons_self _ _) offered)⟩
  have inv := (opened.reaches offering_stable run).quiescent quiescent
  refine inv.pending.resolve_right ?_
  rintro ⟨phase, member, -⟩
  exact Multiset.notMem_zero _ member

end

/-! ## A call before the first task -/

instance : ∀ state phase op others, Decidable (Unhurried state phase op others) := by
  intro (state : WebRtcRoomSession × Calls) (phase : Phase) op others
  unfold Unhurried
  split <;> infer_instance

/-- The permission is refused, and the first offer is sent. -/
theorem offers_ne_nil_of_quiescent_refused : ∃ pool,
    Reaches Unhurried (startedPool micOn threeSenders fun op =>
      op ≠ .getUserMedia .any .none) pool ∧ pool.Quiescent ∧ pool.state.1.offers ≠ [] := by
  have replayed : (mediaSampler.replay Unhurried (List.replicate 7 (0, []))
      (startedPool micOn threeSenders fun op => op ≠ .getUserMedia .any .none)).any
        (fun pool => pool.threads.isEmpty) = true := by
    decide +kernel
  obtain ⟨pool, run, passed⟩ := Sampler.exists_of_replay replayed
  have quiescent := List.isEmpty_iff.mp passed
  exact ⟨pool, run, quiescent, offers_ne_nil_of_quiescent run quiescent⟩

/-- **No offer is ever sent**: new settings are applied before the first task begins. -/
theorem never_offered : ∃ pool : mediaTasks.Pool,
    Reaches unguarded (startedPool micOn threeSenders fun _ => true) pool ∧ pool.Quiescent ∧
      pool.state.1.offers = [] := by
  have replayed : (mediaSampler.replay unguarded (List.replicate 10 (0, []))
      (spawn (.apply allOff) (startedPool micOn threeSenders fun _ => true))).any
        (fun pool => pool.threads.isEmpty ∧ pool.state.1.offers = []) = true := by
    decide +kernel
  obtain ⟨pool, run, passed⟩ := Sampler.exists_of_replay replayed
  obtain ⟨quiescent, none⟩ := of_decide_eq_true passed
  exact ⟨pool, .head (apply_step _ _) run, List.isEmpty_iff.mp quiescent, none⟩

end Callifornia.Client
