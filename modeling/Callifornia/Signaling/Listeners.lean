import Callifornia.Signaling.SfuRegistry

/-! # One event listener for each SFU

Whether an SFU has a listener is looked up under a read lock and noted under a later
write lock, and clearing the registry forgets the listeners without stopping them.
-/

namespace Callifornia.Signaling.SfuRegistry

open Concurrency Concurrency.System

/-- The call has found no listener of this SFU, and has not spawned one yet. -/
def Phase.Starts (sfuAddr : Address) : Phase → Prop
  | .missing other | .noted other => other = sfuAddr
  | _ => False

instance (sfuAddr : Address) : DecidablePred (Phase.Starts sfuAddr) := by
  intro phase
  unfold Phase.Starts
  split <;> infer_instance

/-- A listener is missed only if it was not dropped and no other call is about to start it. -/
def Unstarted : registryCalls.Guard :=
  fun (state : Node × History) _ op (others : Multiset Phase) =>
    match op with
    | .hasListener sfuAddr => sfuAddr ∉ state.1.listeners →
        sfuAddr ∉ state.2.dropped ∧ ∀ other ∈ others, ¬ Phase.Starts sfuAddr other
    | _ => True

/-- An SFU has one listener at most, counting those that are about to be started. -/
structure Single (sfuAddr : Address) (state : Node × History) (phases : Multiset Phase) :
    Prop where
  one : state.1.running.count sfuAddr + phases.countP (Phase.Starts sfuAddr) ≤ 1
  unnoted : sfuAddr ∉ state.1.listeners → sfuAddr ∉ state.2.dropped →
    state.1.running.count sfuAddr = 0 ∧ .noted sfuAddr ∉ phases

/-- The outline of the listeners. -/
def listening : Outline registryCalls where
  guard := Unstarted
  inv state phases := ∀ sfuAddr, Single sfuAddr state phases
  asserts _ _ _ := True

/-- The call is not about to start a listener. -/
def Phase.Calm (phase : Phase) : Prop := ∀ sfuAddr, ¬ phase.Starts sfuAddr

/-- The step neither looks for a listener nor starts one. -/
def Op.Deaf : Op → Prop
  | .hasListener _ | .insertListener _ | .spawnListener _ => False
  | _ => True

section

variable {sfuAddr : Address} {state : Node × History} {phase : Phase} {others : Multiset Phase}

theorem Single.cons_calm (calm : ¬ phase.Starts sfuAddr) :
    Single sfuAddr state (phase ::ₘ others) ↔ Single sfuAddr state others := by
  have other : Phase.noted sfuAddr ≠ phase := by
    rintro rfl
    exact calm rfl
  constructor
  · rintro ⟨one, unnoted⟩
    rw [Multiset.countP_cons_of_neg _ calm] at one
    exact ⟨one, fun absent kept => ⟨(unnoted absent kept).1, fun member =>
      (unnoted absent kept).2 (Multiset.mem_cons_of_mem member)⟩⟩
  · rintro ⟨one, unnoted⟩
    refine ⟨by rwa [Multiset.countP_cons_of_neg _ calm], fun absent kept => ?_⟩
    obtain ⟨none, free⟩ := unnoted absent kept
    exact ⟨none, fun member => free ((Multiset.mem_cons.mp member).resolve_left other)⟩

/-- Clearing the set drops what was in it. -/
theorem Single.cleared (single : Single sfuAddr state others) :
    Single sfuAddr ({ state.1 with listeners := ∅ },
      { state.2 with dropped := state.2.dropped ∪ state.1.listeners }) others := by
  refine ⟨single.one, fun _ kept => ?_⟩
  obtain ⟨old, now⟩ := not_or.mp (mt Finset.mem_union.mpr kept)
  exact single.unnoted now old

variable {other : Address}

theorem Single.missed (single : Single other state others)
    (first : other = sfuAddr → other ∉ state.1.listeners ∧ other ∉ state.2.dropped ∧
      ∀ phase ∈ others, ¬ Phase.Starts other phase) :
    Single other state (.missing sfuAddr ::ₘ others) := by
  by_cases own : (Phase.missing sfuAddr).Starts other
  · obtain ⟨absent, kept, alone⟩ := first (Eq.symm own)
    obtain ⟨none, free⟩ := single.unnoted absent kept
    refine ⟨?_, fun _ _ => ⟨none, fun member =>
      free ((Multiset.mem_cons.mp member).resolve_left nofun)⟩⟩
    rw [none, Multiset.countP_cons_of_pos _ own, Multiset.countP_eq_zero.mpr alone]
  · exact (Single.cons_calm own).mpr single

theorem Single.noted (single : Single other state (.missing sfuAddr ::ₘ others)) :
    Single other ({ state.1 with listeners := insert sfuAddr state.1.listeners }, state.2)
      (.noted sfuAddr ::ₘ others) := by
  obtain ⟨one, unnoted⟩ := single
  have same : (Phase.noted sfuAddr ::ₘ others).countP (Phase.Starts other) =
      (Phase.missing sfuAddr ::ₘ others).countP (Phase.Starts other) := by
    rw [Multiset.countP_cons, Multiset.countP_cons]
    rfl
  refine ⟨same ▸ one, fun absent kept => ?_⟩
  obtain ⟨none, free⟩ := unnoted (mt Finset.mem_insert_of_mem absent) kept
  refine ⟨none, fun member => ?_⟩
  rcases Multiset.mem_cons.mp member with own | later
  · exact absent (Finset.mem_insert.mpr (.inl (Phase.noted.inj own)))
  · exact free (Multiset.mem_cons_of_mem later)

theorem Single.spawned (single : Single other state (.noted sfuAddr ::ₘ others)) :
    Single other ({ state.1 with running := sfuAddr ::ₘ state.1.running }, state.2) others := by
  obtain ⟨one, unnoted⟩ := single
  by_cases own : (Phase.noted sfuAddr).Starts other
  · rw [Multiset.countP_cons_of_pos _ own] at one
    obtain rfl : sfuAddr = other := own
    have counted : (sfuAddr ::ₘ state.1.running).count sfuAddr +
        others.countP (Phase.Starts sfuAddr) ≤ 1 := by
      rw [Multiset.count_cons_self]
      omega
    exact ⟨counted, fun absent kept => absurd (Multiset.mem_cons_self _ _) (unnoted absent kept).2⟩
  · have counted : (sfuAddr ::ₘ state.1.running).count other = state.1.running.count other :=
      Multiset.count_cons_of_ne (fun same => own same.symm) _
    rw [Multiset.countP_cons_of_neg _ own, ← counted] at one
    refine ⟨one, fun absent kept => ?_⟩
    obtain ⟨none, free⟩ := unnoted absent kept
    exact ⟨counted.trans none, fun member => free (Multiset.mem_cons_of_mem member)⟩

/-- Other steps start no listener, and note none. -/
theorem deaf_exec {op : Op} (deaf : op.Deaf) {node after : Node} {reply : op.Reply}
    (effect : exec op node reply after) : after.running = node.running ∧
      (after.listeners = node.listeners ∨ op = .clearListeners ∧ after.listeners = ∅) := by
  cases op with
  | clearListeners =>
      cases effect
      exact ⟨rfl, .inr ⟨rfl, rfl⟩⟩
  | peerLock key =>
      have effect : (reply, after) = node.peerLock key := effect
      unfold Node.peerLock at effect
      split at effect
      · cases effect
        exact ⟨rfl, .inl rfl⟩
      · cases effect
        exact ⟨rfl, .inl rfl⟩
  | _ =>
      first
        | exact deaf.elim
        | cases effect; exact ⟨rfl, .inl rfl⟩
        | obtain ⟨-, rfl⟩ := effect; exact ⟨rfl, .inl rfl⟩

theorem note_dropped {op : Op} (other : op ≠ .clearListeners) (history : History) (node : Node)
    (reply : op.Reply) : (history.note op node reply).dropped = history.dropped := by
  cases op with
  | clearListeners => exact absurd rfl other
  | receive call => cases reply <;> rfl
  | _ => rfl

theorem deaf_advance {op : Op} (deaf : op.Deaf) (calm : phase.Calm) (reply : op.Reply) :
    (phase.advance op reply).Calm := by
  cases op with
  | hasListener sfuAddr => exact deaf.elim
  | insertListener sfuAddr => exact deaf.elim
  | spawnListener sfuAddr => exact deaf.elim
  | peerLock key => exact fun _ => id
  | unlock mutex => exact fun _ => id
  | lock mutex => cases phase <;> exact calm
  | receive call => cases phase <;> exact calm
  | send request =>
      have sent : (phase.sent reply).Calm := by
        cases phase <;> exact calm
      cases request with
      | handleSdp => exact sent
      | _ => exact calm
  | _ => exact calm

theorem Single.deaf {op : Op} (deaf : op.Deaf) {reply : op.Reply} {after : Node × History}
    (single : Single sfuAddr state others) (effect : registryCalls.exec op state reply after) :
    Single sfuAddr after others := by
  obtain ⟨node, history⟩ := state
  obtain ⟨node', history'⟩ := after
  obtain ⟨effect, same⟩ := effect
  cases (show history' = history.note op node reply from same)
  obtain ⟨running, listeners⟩ := deaf_exec deaf (show exec op node reply node' from effect)
  by_cases clears : op = .clearListeners
  · subst op
    cases (show node' = { node with listeners := ∅ } from effect)
    exact single.cleared
  · have listeners := listeners.resolve_right fun cleared => clears cleared.1
    obtain ⟨one, unnoted⟩ := single
    refine ⟨?_, fun absent kept => ?_⟩
    · rw [running]
      exact one
    · rw [running]
      rw [listeners] at absent
      rw [note_dropped clears] at kept
      exact unnoted absent kept

/-- A call that neither looks for a listener nor starts one is calm all along. -/
theorem calm_safe {α : Type} {program : Call α} (only : program.Only Op.Deaf)
    (calm : phase.Calm) :
    listening.Safe (fun last _ => Phase.Calm last) phase program := by
  refine Outline.Safe.of_steps ?_ only calm
  intro op phase deaf calm state others single _
  refine ⟨trivial, fun reply after effect => ⟨fun sfuAddr => ?_, deaf_advance deaf calm reply⟩⟩
  have own := (Single.cons_calm (calm sfuAddr)).mp (single sfuAddr)
  exact (Single.cons_calm (deaf_advance deaf calm reply sfuAddr)).mpr (own.deaf deaf effect)

/-- A call that starts a listener, if it finds none. -/
theorem ensureListener_safe (sfuAddr : Address) (calm : phase.Calm) :
    listening.Safe (fun last _ => Phase.Calm last) phase (ensureListener sfuAddr) := by
  rintro state others single unstarted
  refine ⟨trivial, fun known after effect => ?_⟩
  obtain ⟨⟨found, same⟩, kept⟩ := effect
  obtain rfl : after = state := Prod.ext same kept
  by_cases noted : sfuAddr ∈ after.1.listeners
  · obtain rfl : known = true := found.trans (decide_eq_true noted)
    exact ⟨single, calm⟩
  · obtain rfl : known = false := found.trans (decide_eq_false noted)
    have quiet : ∀ other, Single other after others := fun other =>
      (Single.cons_calm (calm other)).mp (single other)
    obtain ⟨kept, alone⟩ := unstarted noted
    refine ⟨fun other => (quiet other).missed (fun same => same ▸ ⟨noted, kept, alone⟩), ?_⟩
    rintro state others single -
    refine ⟨trivial, fun _ after effect => ?_⟩
    obtain ⟨same, kept⟩ := effect
    obtain rfl : after = ({ state.1 with listeners := insert sfuAddr state.1.listeners },
      state.2) :=
      Prod.ext same kept
    refine ⟨fun other => (single other).noted, ?_⟩
    rintro state others single -
    refine ⟨trivial, fun _ after effect => ⟨fun other => ?_, fun _ => id⟩⟩
    obtain ⟨same, kept⟩ := effect
    obtain rfl : after = ({ state.1 with running := sfuAddr ::ₘ state.1.running }, state.2) :=
      Prod.ext same kept
    exact (Single.cons_calm id).mpr (single other).spawned

theorem deaf_runRpc (sfuAddr : Address) (request : Request) :
    (runRpc sfuAddr request).Only Op.Deaf := by
  refine (runRpc_carries sfuAddr request).mono fun op carries => ?_
  cases op <;> trivial

theorem task_safe (task : Task) :
    listening.Safe (fun last _ => Phase.Calm last) .idle task.program := by
  have calm : Phase.idle.Calm := fun _ => id
  cases task with
  | ensureListener sfuAddr => exact ensureListener_safe sfuAddr calm
  | ensurePeer signalingId sfuAddr roomId nickname =>
      refine Outline.Safe.mapConst (Outline.Safe.bind ?_)
      refine (ensureListener_safe sfuAddr calm).mono fun phase _ calm => ?_
      exact calm_safe ((deaf_runRpc _ _).bind fun _ => trivial) calm
  | deletePeer sfuAddr roomId nickname reason =>
      refine Outline.Safe.mapConst (calm_safe ?_ calm)
      exact (deaf_runRpc _ _).bind fun _ => ⟨trivial, fun _ => trivial⟩
  | handleSdp sfuAddr roomId nickname sdp sdpType =>
      refine Outline.Safe.mapConst (calm_safe ?_ calm)
      refine ⟨trivial, fun _ => ⟨trivial, fun _ => ?_⟩⟩
      exact (deaf_runRpc _ _).bind fun _ => ⟨trivial, fun _ => trivial⟩
  | addIceCandidate sfuAddr roomId nickname candidate sdpMid =>
      refine Outline.Safe.mapConst (calm_safe ?_ calm)
      exact (deaf_runRpc _ _).bind fun _ => trivial
  | cleanupLocalPeerState roomId nickname => exact calm_safe ⟨trivial, fun _ => trivial⟩ calm
  | clear =>
      exact calm_safe ⟨trivial, fun _ => ⟨trivial, fun _ => ⟨trivial, fun _ => trivial⟩⟩⟩ calm

theorem listening_stable : listening.Stable where
  start := by
    rintro state others phase program after ⟨rfl, rfl, task, rfl⟩ single
    refine ⟨fun sfuAddr => (Single.cons_calm id).mpr (single sfuAddr), ?_⟩
    refine (task_safe task).mono fun phase _ calm state others single sfuAddr => ?_
    exact (Single.cons_calm (calm sfuAddr)).mp (single sfuAddr)
  discard _ _ _ never := never.elim
  environment := by
    rintro state others after ⟨moves, kept⟩ single sfuAddr
    obtain ⟨one, unnoted⟩ := single sfuAddr
    obtain ⟨node, history⟩ := state
    obtain ⟨node', history'⟩ := after
    cases (show history' = history from kept)
    cases (show node.Moves node' from moves) <;> exact ⟨one, unnoted⟩

/-- **One listener for each SFU**, if a call finds an SFU without a listener only when no
other call is about to start one, and the set has not been cleared of it. -/
theorem running_le_one_of_reaches (signalingId : NodeId) {pool : registryCalls.Pool}
    (run : Reaches Unstarted ⟨(Node.fresh signalingId, {}), []⟩ pool) (sfuAddr : Address) :
    pool.state.1.running.count sfuAddr ≤ 1 := by
  have start (sfuAddr : Address) : Single sfuAddr (Node.fresh signalingId, {}) 0 :=
    ⟨Nat.zero_le 1, fun _ _ => ⟨rfl, Multiset.notMem_zero _⟩⟩
  have opened : listening.Holds ⟨(Node.fresh signalingId, {}), []⟩ := .of_quiescent start
  have one := ((opened.reaches listening_stable run).1 sfuAddr).one
  omega

end

/-! ## Two calls at once -/

instance : ∀ state phase op others, Decidable (Unstarted state phase op others) := by
  intro (state : Node × History) phase op (others : Multiset Phase)
  unfold Unstarted
  split <;> infer_instance

/-- One call after the other. -/
theorem running_le_one_of_reaches_both : ∃ pool : registryCalls.Pool,
    Reaches Unstarted ⟨(Node.fresh "node", {}), []⟩ pool ∧ pool.Quiescent ∧
      pool.state.1.running.count "sfu" ≤ 1 := by
  have replayed : (registrySampler.replay Unstarted
      (List.replicate 6 (0, .ok { success := true }))
      ⟨(Node.fresh "node", {}), launched [.ensureListener "sfu", .ensureListener "sfu"]⟩).any
        (fun pool => pool.threads.isEmpty) = true := by
    decide +kernel
  obtain ⟨pool, run, passed⟩ := Sampler.exists_of_replay replayed
  have run := (reaches_launched _ _).trans run
  exact ⟨pool, run, List.isEmpty_iff.mp passed, running_le_one_of_reaches "node" run "sfu"⟩

/-- **Two listeners for one SFU**: both calls look before either has noted its listener. -/
theorem two_listeners : ∃ pool : registryCalls.Pool,
    Reaches unguarded ⟨(Node.fresh "node", {}), []⟩ pool ∧ pool.Quiescent ∧
      pool.state.1.running.count "sfu" = 2 := by
  have replayed : (registrySampler.replay unguarded
      ([0, 1, 0, 0, 0, 0, 0, 0].map fun position => (position, .ok { success := true }))
      ⟨(Node.fresh "node", {}), launched [.ensureListener "sfu", .ensureListener "sfu"]⟩).any
        (fun pool => pool.threads.isEmpty ∧ pool.state.1.running.count "sfu" = 2) = true := by
    decide +kernel
  obtain ⟨pool, run, passed⟩ := Sampler.exists_of_replay replayed
  obtain ⟨quiescent, two⟩ := of_decide_eq_true passed
  exact ⟨pool, (reaches_launched _ _).trans run, List.isEmpty_iff.mp quiescent, two⟩

end Callifornia.Signaling.SfuRegistry
