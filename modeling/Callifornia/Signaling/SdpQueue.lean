import Callifornia.Signaling.SfuRegistry

/-! # One negotiation for each peer

The calls that negotiate an SDP of one peer queue at a mutex. It is found in a map from
which other calls remove it, and it is free again when its holder stops waiting for the SFU.
-/

namespace Callifornia.Signaling.SfuRegistry

open Concurrency Concurrency.System FiniteMap

namespace Phase

/-- The peer whose mutex a call has fetched, with that mutex. -/
def mutex : Phase → Option (PeerKey × MutexId)
  | .queued key mutex | .holding key mutex | .negotiating key mutex _ => some (key, mutex)
  | _ => none

/-- The mutex a call holds. -/
def holds : Phase → Option MutexId
  | .holding _ mutex | .negotiating _ mutex _ => some mutex
  | _ => none

/-- The call has fetched a mutex of this peer and not let go of it. -/
def Uses (key : PeerKey) (phase : Phase) : Prop := phase.mutex.map Prod.fst = some key

instance (key : PeerKey) : DecidablePred (Uses key) := fun _ => decEq _ _

end Phase

/-- A peer gets a new mutex only while no call uses an earlier one, and an SDP is sent only
when no SFU has a call for the peer on whose end nobody waits. -/
def Orderly : registryCalls.Guard :=
  fun (state : Node × History) _ op (others : Multiset Phase) =>
    match op with
    | .peerLock key => state.1.sdpPeerLocks.lookup key = none →
        ∀ other ∈ others, ¬ Phase.Uses key other
    | .send request => ∀ peer ∈ request.negotiates, ∀ rpc ∈ state.1.calls,
        rpc.request.negotiates = some peer → rpc.id ∉ state.2.abandoned
    | _ => True

/-- The calls for one peer share a mutex, one of them holds it, and an SFU has calls only of
the one that holds it, unless that has given up waiting. -/
structure Queued (state : Node × History) (phases : Multiset Phase) : Prop where
  shared : ∀ key mutex mutex', (key, mutex) ∈ phases.filterMap Phase.mutex →
    (key, mutex') ∈ phases.filterMap Phase.mutex → mutex = mutex'
  stored : ∀ key mutex mutex', state.1.sdpPeerLocks.lookup key = some mutex →
    (key, mutex') ∈ phases.filterMap Phase.mutex → mutex' = mutex
  exclusive : (phases.filterMap Phase.holds).Nodup
  held : ∀ mutex ∈ phases.filterMap Phase.holds, mutex ∈ state.1.held
  waiting : ∀ rpc ∈ state.1.calls, ∀ peer, rpc.request.negotiates = some peer →
    rpc.id ∉ state.2.abandoned →
      ∃ mutex, Phase.negotiating (sdpPeerKey peer.1 peer.2) mutex rpc.id ∈ phases
  one : ∀ first ∈ state.1.calls, ∀ second ∈ state.1.calls, ∀ peer,
    first.request.negotiates = some peer → second.request.negotiates = some peer → first = second

/-- The outline of the negotiations. -/
def queueing : Outline registryCalls where
  guard := Orderly
  inv := Queued
  asserts _ _ _ := True

section

variable {state after : Node × History} {phase : Phase} {phases others : Multiset Phase}
  {key : PeerKey} {mutex : MutexId}

namespace Queued

/-- What takes mutexes out of the map and calls from the SFUs. -/
theorem shrinks (queued : Queued state phases)
    (locks : ∀ key mutex, after.1.sdpPeerLocks.lookup key = some mutex →
      state.1.sdpPeerLocks.lookup key = some mutex)
    (held : after.1.held = state.1.held)
    (calls : ∀ rpc ∈ after.1.calls, rpc.request.negotiates ≠ none → rpc ∈ state.1.calls)
    (abandoned : state.2.abandoned ⊆ after.2.abandoned) : Queued after phases where
  shared := queued.shared
  stored key mutex mutex' found := queued.stored key mutex mutex' (locks key mutex found)
  exclusive := queued.exclusive
  held mutex member := held ▸ queued.held mutex member
  waiting rpc member peer negotiates known := by
    have before := calls rpc member
      (by simp only [negotiates, ne_eq, reduceCtorEq, not_false_eq_true])
    exact queued.waiting rpc before peer negotiates fun given => known (abandoned given)
  one first member second member' peer negotiates negotiates' := by
    have before {rpc : Rpc} (member : rpc ∈ after.1.calls)
        (negotiates : rpc.request.negotiates = some peer) : rpc ∈ state.1.calls :=
      calls rpc member (by simp only [negotiates, ne_eq, reduceCtorEq, not_false_eq_true])
    exact queued.one first (before member negotiates) second (before member' negotiates') peer
      negotiates negotiates'

/-- A task that has no mutex holds none. -/
theorem holds_of_mutex (free : phase.mutex = none) : phase.holds = none := by
  cases phase <;> first | rfl | cases free

/-- A call that uses no mutex is in no one's way. -/
theorem cons_free (free : phase.mutex = none) :
    Queued state (phase ::ₘ others) ↔ Queued state others := by
  have unused : (phase ::ₘ others).filterMap Phase.mutex = others.filterMap Phase.mutex :=
    Multiset.filterMap_cons_none _ _ free
  have idle : (phase ::ₘ others).filterMap Phase.holds = others.filterMap Phase.holds :=
    Multiset.filterMap_cons_none _ _ (holds_of_mutex free)
  constructor
  · rintro ⟨shared, stored, exclusive, held, waiting, one⟩
    rw [unused] at shared stored
    rw [idle] at exclusive held
    refine ⟨shared, stored, exclusive, held, fun rpc member peer negotiates known => ?_, one⟩
    obtain ⟨mutex, waits⟩ := waiting rpc member peer negotiates known
    refine ⟨mutex, (Multiset.mem_cons.mp waits).resolve_left ?_⟩
    rintro rfl
    cases free
  · rintro ⟨shared, stored, exclusive, held, waiting, one⟩
    rw [← unused] at shared stored
    rw [← idle] at exclusive held
    refine ⟨shared, stored, exclusive, held, fun rpc member peer negotiates known => ?_, one⟩
    obtain ⟨mutex, waits⟩ := waiting rpc member peer negotiates known
    exact ⟨mutex, Multiset.mem_cons_of_mem waits⟩

/-- The mutexes in hand are those of the tasks. -/
theorem mem_mutexes {pair : PeerKey × MutexId} :
    pair ∈ phases.filterMap Phase.mutex ↔ ∃ phase ∈ phases, phase.mutex = some pair :=
  Multiset.mem_filterMap _ _

/-- A phase replaced by one with the same entry leaves the list of entries as it was. -/
theorem filterMap_cons_congr {β : Type} {f : Phase → Option β} {phase' : Phase}
    (same : f phase = f phase') :
    (phase ::ₘ others).filterMap f = (phase' ::ₘ others).filterMap f := by
  cases own : f phase' with
  | none =>
      rw [Multiset.filterMap_cons_none _ _ own, Multiset.filterMap_cons_none _ _ (same.trans own)]
  | some value =>
      rw [Multiset.filterMap_cons_some _ _ _ own,
        Multiset.filterMap_cons_some _ _ _ (same.trans own)]

/-- Calling the SFU does not change which mutexes are in hand. -/
theorem mutexes_negotiating (call : CallId) :
    (Phase.negotiating key mutex call ::ₘ others).filterMap Phase.mutex =
      (Phase.holding key mutex ::ₘ others).filterMap Phase.mutex := filterMap_cons_congr rfl

/-- Calling the SFU does not change which mutexes are held. -/
theorem holds_negotiating (call : CallId) :
    (Phase.negotiating key mutex call ::ₘ others).filterMap Phase.holds =
      (Phase.holding key mutex ::ₘ others).filterMap Phase.holds := filterMap_cons_congr rfl

/-- A call fetches the mutex of a peer. -/
theorem fetched (queued : Queued state others)
    (alone : state.1.sdpPeerLocks.lookup key = none → ∀ other ∈ others, ¬ Phase.Uses key other)
    {node : Node} (fetches : (mutex, node) = state.1.peerLock key) :
    Queued (node, state.2) (.queued key mutex ::ₘ others) := by
  have mutexes : (Phase.queued key mutex ::ₘ others).filterMap Phase.mutex =
      (key, mutex) ::ₘ others.filterMap Phase.mutex := Multiset.filterMap_cons_some _ _ _ rfl
  have idle : (Phase.queued key mutex ::ₘ others).filterMap Phase.holds =
      others.filterMap Phase.holds := Multiset.filterMap_cons_none _ _ rfl
  obtain ⟨shared, stored, exclusive, held, waiting, one⟩ := queued
  -- Everyone who uses this peer's mutex uses the one in the map.
  have own : ∀ mutex', (key, mutex') ∈ others.filterMap Phase.mutex → mutex' = mutex := by
    intro mutex' member
    cases found : state.1.sdpPeerLocks.lookup key with
    | none =>
        obtain ⟨other, listed, uses⟩ := mem_mutexes.mp member
        exact absurd (congrArg (Option.map Prod.fst) uses) (alone found other listed)
    | some present =>
        simp only [Node.peerLock, found, Prod.mk.injEq] at fetches
        rw [fetches.1]
        exact stored key present mutex' found member
  have locks : ∀ key' mutex', node.sdpPeerLocks.lookup key' = some mutex' →
      key' = key ∧ mutex' = mutex ∨ state.1.sdpPeerLocks.lookup key' = some mutex' := by
    intro key' mutex' found
    unfold Node.peerLock at fetches
    split at fetches
    · cases fetches
      exact .inr found
    · cases fetches
      rw [lookup_insert_if] at found
      split at found
      · rename_i same
        exact .inl ⟨same, (Option.some.inj found).symm⟩
      · exact .inr found
  have same : node.held = state.1.held ∧ node.calls = state.1.calls := by
    unfold Node.peerLock at fetches
    split at fetches <;> cases fetches <;> exact ⟨rfl, rfl⟩
  refine ⟨?_, ?_, idle ▸ exclusive, fun mutex member => ?_, ?_, ?_⟩
  · intro key' first second member member'
    rw [mutexes] at member member'
    rcases Multiset.mem_cons.mp member with same | member
    · cases same
      rcases Multiset.mem_cons.mp member' with same | member'
      · cases same
        rfl
      · exact (own second member').symm
    · rcases Multiset.mem_cons.mp member' with same | member'
      · cases same
        exact own first member
      · exact shared key' first second member member'
  · intro key' present mutex' found member
    rw [mutexes] at member
    rcases locks key' present found with ⟨rfl, rfl⟩ | found
    · rcases Multiset.mem_cons.mp member with same | member
      · cases same
        rfl
      · exact own mutex' member
    · rcases Multiset.mem_cons.mp member with same | member
      · cases same
        simp only [Node.peerLock, found, Prod.mk.injEq] at fetches
        exact fetches.1
      · exact stored key' present mutex' found member
  · rw [idle] at member
    exact same.1.symm ▸ held mutex member
  · intro rpc member peer negotiates known
    obtain ⟨mutex', waits⟩ := waiting rpc (same.2 ▸ member) peer negotiates known
    exact ⟨mutex', Multiset.mem_cons_of_mem waits⟩
  · intro first member second member' peer
    exact one first (same.2 ▸ member) second (same.2 ▸ member') peer

/-- A call locks its mutex. -/
theorem locked (queued : Queued state (.queued key mutex ::ₘ others))
    (free : mutex ∉ state.1.held) :
    Queued ({ state.1 with held := insert mutex state.1.held }, state.2)
      (.holding key mutex ::ₘ others) := by
  have mutexes : (Phase.holding key mutex ::ₘ others).filterMap Phase.mutex =
      (Phase.queued key mutex ::ₘ others).filterMap Phase.mutex := filterMap_cons_congr rfl
  have idle : (Phase.queued key mutex ::ₘ others).filterMap Phase.holds =
      others.filterMap Phase.holds := Multiset.filterMap_cons_none _ _ rfl
  have holds : (Phase.holding key mutex ::ₘ others).filterMap Phase.holds =
      mutex ::ₘ others.filterMap Phase.holds := Multiset.filterMap_cons_some _ _ _ rfl
  obtain ⟨shared, stored, exclusive, held, waiting, one⟩ := queued
  rw [idle] at exclusive held
  refine ⟨mutexes ▸ shared, mutexes ▸ stored, ?_, fun other member => ?_, ?_, one⟩
  · rw [holds]
    exact Multiset.nodup_cons.mpr ⟨fun member => free (held mutex member), exclusive⟩
  · rw [holds] at member
    rcases Multiset.mem_cons.mp member with rfl | member
    · exact Finset.mem_insert_self _ _
    · exact Finset.mem_insert_of_mem (held other member)
  · intro rpc member peer negotiates known
    obtain ⟨mutex', waits⟩ := waiting rpc member peer negotiates known
    exact ⟨mutex', Multiset.mem_cons_of_mem ((Multiset.mem_cons.mp waits).resolve_left nofun)⟩

/-- The holder of the mutex sends an SDP. -/
theorem sent {request : Request} {peer : RoomId × Nickname}
    (negotiates : request.negotiates = some peer)
    (queued : Queued state (.holding (sdpPeerKey peer.1 peer.2) mutex ::ₘ others))
    (heeded : ∀ rpc ∈ state.1.calls, rpc.request.negotiates = some peer →
      rpc.id ∉ state.2.abandoned) :
    Queued (state.1.send request, state.2)
      (.negotiating (sdpPeerKey peer.1 peer.2) mutex state.1.nextCall ::ₘ others) := by
  obtain ⟨shared, stored, exclusive, held, waiting, one⟩ := queued
  have calls (rpc : Rpc) : rpc ∈ (state.1.send request).calls ↔
      rpc = ⟨state.1.nextCall, request⟩ ∨ rpc ∈ state.1.calls := by
    simp only [Node.calls, Node.send, Finset.insert_union, Finset.mem_insert]
  have old {rpc : Rpc} (member : rpc ∈ state.1.calls) {target : RoomId × Nickname}
      (negotiates : rpc.request.negotiates = some target) (known : rpc.id ∉ state.2.abandoned) :
      ∃ mutex', Phase.negotiating (sdpPeerKey target.1 target.2) mutex' rpc.id ∈ others := by
    obtain ⟨mutex', waits⟩ := waiting rpc member target negotiates known
    exact ⟨mutex', (Multiset.mem_cons.mp waits).resolve_left nofun⟩
  -- Whoever waits for a call of this peer would hold the same mutex.
  have none (rpc : Rpc) (member : rpc ∈ state.1.calls) :
      rpc.request.negotiates ≠ some peer := by
    intro same
    obtain ⟨mutex', waits⟩ := old member same (heeded rpc member same)
    have shared := shared _ mutex mutex' (mem_mutexes.mpr ⟨_, Multiset.mem_cons_self _ _, rfl⟩)
      (mem_mutexes.mpr ⟨_, Multiset.mem_cons_of_mem waits, rfl⟩)
    have holds : (Phase.holding (sdpPeerKey peer.1 peer.2) mutex ::ₘ others).filterMap Phase.holds =
        mutex ::ₘ others.filterMap Phase.holds := Multiset.filterMap_cons_some _ _ _ rfl
    rw [holds] at exclusive
    exact (Multiset.nodup_cons.mp exclusive).1
      ((Multiset.mem_filterMap _ _).mpr ⟨_, waits, congrArg some shared.symm⟩)
  have mutexes := @mutexes_negotiating others (sdpPeerKey peer.1 peer.2) mutex state.1.nextCall
  have holds := @holds_negotiating others (sdpPeerKey peer.1 peer.2) mutex state.1.nextCall
  refine ⟨mutexes ▸ shared, mutexes ▸ stored, holds ▸ exclusive, holds ▸ held, ?_, ?_⟩
  · intro rpc member target negotiates' known
    rcases (calls rpc).mp member with rfl | member
    · cases negotiates.symm.trans negotiates'
      exact ⟨mutex, Multiset.mem_cons_self _ _⟩
    · obtain ⟨mutex', waits⟩ := old member negotiates' known
      exact ⟨mutex', Multiset.mem_cons_of_mem waits⟩
  · intro first member second member' target own own'
    rcases (calls first).mp member with rfl | before
    · rcases (calls second).mp member' with rfl | before'
      · rfl
      · cases negotiates.symm.trans own
        exact absurd own' (none second before')
    · rcases (calls second).mp member' with rfl | before'
      · cases negotiates.symm.trans own'
        exact absurd own (none first before)
      · exact one first before second before' target own own'

/-- A call hears of its SDP, or gives up. -/
theorem heard {call : CallId} {history : History}
    (queued : Queued state (.negotiating key mutex call ::ₘ others))
    (abandoned : state.2.abandoned ⊆ history.abandoned)
    (through : call ∉ history.abandoned → ∀ rpc ∈ state.1.calls, rpc.id ≠ call) :
    Queued (state.1, history) (.holding key mutex ::ₘ others) := by
  obtain ⟨shared, stored, exclusive, held, waiting, one⟩ := queued
  rw [mutexes_negotiating] at shared stored
  rw [holds_negotiating] at exclusive held
  refine ⟨shared, stored, exclusive, held, fun rpc member peer negotiates known => ?_, one⟩
  obtain ⟨mutex', waits⟩ := waiting rpc member peer negotiates fun given => known (abandoned given)
  rcases Multiset.mem_cons.mp waits with same | later
  · obtain ⟨-, -, rfl⟩ := Phase.negotiating.inj same
    exact absurd rfl (through known rpc member)
  · exact ⟨mutex', Multiset.mem_cons_of_mem later⟩

/-- The mutex is free again. -/
theorem unlocked (queued : Queued state (.holding key mutex ::ₘ others)) :
    Queued ({ state.1 with held := state.1.held.erase mutex }, state.2) others := by
  have mutexes : (Phase.holding key mutex ::ₘ others).filterMap Phase.mutex =
      (key, mutex) ::ₘ others.filterMap Phase.mutex := Multiset.filterMap_cons_some _ _ _ rfl
  have holds : (Phase.holding key mutex ::ₘ others).filterMap Phase.holds =
      mutex ::ₘ others.filterMap Phase.holds := Multiset.filterMap_cons_some _ _ _ rfl
  obtain ⟨shared, stored, exclusive, held, waiting, one⟩ := queued
  rw [mutexes] at shared stored
  rw [holds] at exclusive held
  obtain ⟨alone, exclusive⟩ := Multiset.nodup_cons.mp exclusive
  refine ⟨fun key first second member member' => shared key first second
      (Multiset.mem_cons_of_mem member) (Multiset.mem_cons_of_mem member'),
    fun key present mutex' found member => stored key present mutex' found
      (Multiset.mem_cons_of_mem member), exclusive, fun other member => ?_, ?_, one⟩
  · refine Finset.mem_erase.mpr ⟨?_, held other (Multiset.mem_cons_of_mem member)⟩
    rintro rfl
    exact alone member
  · intro rpc member peer negotiates known
    obtain ⟨mutex', waits⟩ := waiting rpc member peer negotiates known
    exact ⟨mutex', (Multiset.mem_cons.mp waits).resolve_left nofun⟩

end Queued

/-- The step touches no mutex and asks for no negotiation. -/
def Op.Apart : Op → Prop
  | .peerLock _ | .lock _ | .unlock _ => False
  | .send request => request.negotiates = none
  | _ => True

/-- What a history has abandoned stays abandoned. -/
theorem note_abandoned (history : History) (op : Op) (node : Node) (reply : op.Reply) :
    history.abandoned ⊆ (history.note op node reply).abandoned := by
  cases op with
  | receive call =>
      cases reply with
      | ok response => exact Finset.Subset.refl _
      | error failure => exact Finset.subset_insert _ _
  | _ => exact Finset.Subset.refl _

/-- An operation apart from the queue leaves it as it was. -/
theorem Queued.apart {op : Op} (apart : op.Apart) (queued : Queued state phases)
    {reply : op.Reply} (effect : registryCalls.exec op state reply after) :
    Queued after phases := by
  obtain ⟨node, history⟩ := state
  obtain ⟨node', history'⟩ := after
  obtain ⟨effect, same⟩ := effect
  cases (show history' = history.note op node reply from same)
  have abandoned := note_abandoned history op node reply
  have same (locks : node'.sdpPeerLocks = node.sdpPeerLocks) (held : node'.held = node.held)
      (calls : node'.calls = node.calls) : Queued (node', history.note op node reply) phases :=
    queued.shrinks (fun key mutex found => locks ▸ found) held
      (fun rpc member _ => calls ▸ member) abandoned
  cases op with
  | peerLock key => exact apart.elim
  | lock mutex => exact apart.elim
  | unlock mutex => exact apart.elim
  | removePeerLock key =>
      cases effect
      refine queued.shrinks (fun key' mutex found => ?_) rfl (fun rpc member _ => member) abandoned
      by_cases own : key' = key
      · subst own
        rw [Finmap.lookup_erase] at found
        cases found
      · rwa [Finmap.lookup_erase_ne own] at found
  | clearPeerLocks =>
      cases effect
      refine queued.shrinks (fun key' mutex found => ?_) rfl (fun rpc member _ => member) abandoned
      rw [Finmap.lookup_empty] at found
      cases found
  | send request =>
      obtain ⟨-, rfl⟩ := effect
      refine queued.shrinks (fun key mutex found => found) rfl (fun rpc member negotiates => ?_)
        abandoned
      simp only [Node.calls, Node.send, Finset.insert_union, Finset.mem_insert] at member
      refine member.resolve_left ?_
      rintro rfl
      exact negotiates apart
  | _ =>
      first
        | cases effect; exact same rfl rfl rfl
        | cases (show node' = node from effect.2); exact same rfl rfl rfl

/-- An operation apart from the queue gives its task no mutex. -/
theorem apart_advance {op : Op} (apart : op.Apart) (free : phase.mutex = none)
    (reply : op.Reply) : (phase.advance op reply).mutex = none := by
  cases op with
  | peerLock key => exact apart.elim
  | lock mutex => exact apart.elim
  | unlock mutex => exact apart.elim
  | hasListener sfuAddr => cases reply <;> first | exact free | rfl
  | insertListener sfuAddr => rfl
  | spawnListener sfuAddr => rfl
  | send request =>
      have none : request.negotiates = none := apart
      simp only [Phase.advance, none, Option.isSome_none, Bool.false_eq_true, if_false]
      exact free
  | receive call => cases phase <;> exact free
  | _ => exact free

/-- A call that neither touches a mutex nor asks for a negotiation. -/
theorem apart_safe {α : Type} {program : Call α} (only : program.Only Op.Apart)
    (free : phase.mutex = none) :
    queueing.Safe (fun last _ => Phase.mutex last = none) phase program := by
  refine Outline.Safe.of_steps ?_ only free
  intro op phase apart free state others queued _
  refine ⟨trivial, fun reply after effect => ⟨?_, apart_advance apart free reply⟩⟩
  have own := (Queued.cons_free free).mp queued
  exact (Queued.cons_free (apart_advance apart free reply)).mpr (own.apart apart effect)

/-- A step that is of no matter to the holder of a mutex. -/
theorem inert_holding {op : Op} (apart : op.Apart)
    (still : ∀ reply, (Phase.holding key mutex).advance op reply = .holding key mutex) :
    queueing.Inert (.holding key mutex) op where
  asserts _ := trivial
  keeps _ _ _ _ queued effect := queued.apart apart effect
  still := still

/-- The call that negotiates runs while its task holds the mutex of that peer. -/
theorem runRpc_safe (sfuAddr : Address) {request : Request} {peer : RoomId × Nickname}
    (negotiates : request.negotiates = some peer) (keyed : key = sdpPeerKey peer.1 peer.2) :
    queueing.Safe (fun last _ => last = Phase.holding key mutex) (.holding key mutex)
      (runRpc sfuAddr request) := by
  have opens : (channelFor sfuAddr).Only (queueing.Inert (.holding key mutex)) := by
    refine ⟨inert_holding trivial fun _ => rfl, fun known => ?_⟩
    cases known with
    | true => trivial
    | false =>
        refine ⟨inert_holding trivial fun _ => rfl, fun connected => ?_⟩
        cases connected with
        | true => exact ⟨inert_holding trivial fun _ => rfl, fun _ => trivial⟩
        | false => trivial
  refine Outline.Safe.bind ((Outline.Safe.of_only opens).mono ?_)
  rintro phase channel rfl
  cases channel with
  | error error => rfl
  | ok =>
      subst keyed
      rintro state others queued heeded
      refine ⟨trivial, fun call after effect => ?_⟩
      obtain ⟨⟨rfl, same⟩, kept⟩ := effect
      obtain rfl : after = (state.1.send request, state.2) := Prod.ext same kept
      have advanced : registryCalls.advance (Phase.holding (sdpPeerKey peer.1 peer.2) mutex)
          (Op.send request) state.1.nextCall =
            Phase.negotiating (sdpPeerKey peer.1 peer.2) mutex state.1.nextCall := by
        have asks : request.negotiates.isSome = true := congrArg Option.isSome negotiates
        exact if_pos asks
      rw [advanced]
      refine ⟨queued.sent negotiates (heeded peer negotiates), ?_⟩
      generalize state.1.nextCall = call
      rintro state others queued -
      refine ⟨trivial, fun response after effect => ?_⟩
      obtain ⟨⟨through, same⟩, kept⟩ := effect
      obtain rfl : after = (state.1, state.2.note (.receive call) state.1 response) :=
        Prod.ext same kept
      have abandoned := note_abandoned state.2 (.receive call) state.1 response
      cases response with
      | ok response => exact ⟨queued.heard abandoned fun _ => through rfl, rfl⟩
      | error failure =>
          refine ⟨queued.heard abandoned fun known =>
            absurd (Finset.mem_insert_self _ _) known, ?_⟩
          have removes : queueing.Safe
            (fun last _ => last = Phase.holding (sdpPeerKey peer.1 peer.2)
              mutex) (.holding (sdpPeerKey peer.1 peer.2) mutex) (Program.call (Op.removeClient
                sfuAddr) fun _ => .ret (.error failure.error) :
                Call (Except SfuClientError Response)) :=
            Outline.Safe.inert
              (@inert_holding _ mutex (.removeClient sfuAddr) trivial fun _ => rfl)
                fun _ _ _ _ => rfl
          cases failure with
          | timeout => exact removes
          | status code =>
              cases code with
              | other => rfl
              | _ => exact removes

/-- A negotiation takes the mutex of its peer, calls the SFU under it, and lets it go. -/
theorem handleSdp_safe (sfuAddr : Address) (roomId : RoomId) (nickname : Nickname)
    (sdp sdpType : String) :
    queueing.Safe (fun last _ => last = Phase.idle) .idle
      (handleSdp sfuAddr roomId nickname sdp sdpType) := by
  rintro state others queued alone
  refine ⟨trivial, fun mutex after effect => ?_⟩
  obtain ⟨node, history⟩ := after
  obtain ⟨fetches, kept⟩ := effect
  obtain rfl : history = state.2 := kept
  have queued := (Queued.cons_free rfl).mp queued
  refine ⟨queued.fetched alone fetches, ?_⟩
  rintro state others queued -
  refine ⟨trivial, fun _ after effect => ?_⟩
  obtain ⟨⟨free, same⟩, kept⟩ := effect
  obtain rfl : after = ({ state.1 with held := insert mutex state.1.held }, state.2) :=
    Prod.ext same kept
  refine ⟨queued.locked free, Outline.Safe.bind (Outline.safe_ret.mpr ?_)⟩
  have asks : queueing.Safe _ (.holding _ mutex) (runRpc sfuAddr (.handleSdp roomId nickname sdp
      (parseSdpType sdpType))) := runRpc_safe sfuAddr rfl rfl
  refine Outline.Safe.bind (asks.mono ?_)
  rintro phase response rfl state others queued -
  refine ⟨trivial, fun _ after effect => ?_⟩
  obtain ⟨same, kept⟩ := effect
  obtain rfl : after = ({ state.1 with held := state.1.held.erase mutex }, state.2) :=
    Prod.ext same kept
  exact ⟨(Queued.cons_free rfl).mpr queued.unlocked, rfl⟩

/-- A call that negotiates nothing is apart from the queue. -/
theorem apart_runRpc (sfuAddr : Address) {request : Request} (quiet : request.negotiates = none) :
    (runRpc sfuAddr request).Only Op.Apart := by
  refine (runRpc_carries sfuAddr request).mono fun op carries => ?_
  cases op with
  | send sent => exact (congrArg Request.negotiates carries).trans quiet
  | _ => trivial

/-- Starting a listener is apart from the queue. -/
theorem apart_ensureListener (sfuAddr : Address) : (ensureListener sfuAddr).Only Op.Apart := by
  refine ⟨trivial, fun known => ?_⟩
  cases known with
  | true => trivial
  | false => exact ⟨trivial, fun _ => ⟨trivial, fun _ => trivial⟩⟩

/-- Every task ends without a mutex. -/
theorem program_safe (task : Task) :
    queueing.Safe (fun last _ => Phase.mutex last = none) .idle task.program := by
  cases task with
  | ensureListener sfuAddr => exact apart_safe (apart_ensureListener sfuAddr) rfl
  | ensurePeer signalingId sfuAddr roomId nickname =>
      refine Outline.Safe.mapConst (apart_safe ?_ rfl)
      exact (apart_ensureListener sfuAddr).bind fun _ =>
        (apart_runRpc _ rfl).bind fun _ => trivial
  | deletePeer sfuAddr roomId nickname reason =>
      refine Outline.Safe.mapConst (apart_safe ?_ rfl)
      exact (apart_runRpc _ rfl).bind fun _ => ⟨trivial, fun _ => trivial⟩
  | handleSdp sfuAddr roomId nickname sdp sdpType =>
      have safe := handleSdp_safe sfuAddr roomId nickname sdp sdpType
      refine Outline.Safe.mapConst (Outline.Safe.mono ?_ safe)
      rintro phase value rfl
      rfl
  | addIceCandidate sfuAddr roomId nickname candidate sdpMid =>
      refine Outline.Safe.mapConst (apart_safe ?_ rfl)
      exact (apart_runRpc _ rfl).bind fun _ => trivial
  | cleanupLocalPeerState roomId nickname => exact apart_safe ⟨trivial, fun _ => trivial⟩ rfl
  | clear =>
      exact apart_safe ⟨trivial, fun _ => ⟨trivial, fun _ => ⟨trivial, fun _ => trivial⟩⟩⟩ rfl

/-- The queue is kept by the steps of the other tasks. -/
theorem queueing_stable : queueing.Stable where
  start := by
    rintro state others phase program after ⟨rfl, rfl, task, rfl⟩ queued
    refine ⟨(Queued.cons_free rfl).mpr queued, ?_⟩
    refine (program_safe task).mono fun phase _ free state others queued => ?_
    exact (Queued.cons_free free).mp queued
  discard _ _ _ never := never.elim
  environment := by
    rintro state others after ⟨moves, kept⟩ queued
    obtain ⟨node, history⟩ := state
    obtain ⟨node', history'⟩ := after
    cases (show history' = history from kept)
    have fewer (calls : node'.calls ⊆ node.calls) (locks : node'.sdpPeerLocks = node.sdpPeerLocks)
        (held : node'.held = node.held) : Queued (node', history) others :=
      queued.shrinks (fun key mutex found => locks ▸ found) held
        (fun rpc member _ => calls member) (Finset.Subset.refl _)
    cases (show node.Moves node' from moves) with
    | @starts rpc sent =>
        refine fewer (fun other member => ?_) rfl rfl
        rcases Finset.mem_union.mp member with flying | running
        · exact Finset.mem_union_left _ (Finset.mem_of_mem_erase flying)
        · rcases Finset.mem_insert.mp running with rfl | running
          · exact Finset.mem_union_left _ sent
          · exact Finset.mem_union_right _ running
    | ends =>
        exact fewer (Finset.union_subset_union_right (Finset.erase_subset _ _)) rfl rfl
    | lost => exact fewer (Finset.union_subset_union_left (Finset.erase_subset _ _)) rfl rfl
    | clients clients => exact fewer (Finset.Subset.refl _) rfl rfl

/-- **One negotiation for each peer**, if its mutex is made anew only while no call uses an
earlier one, and no SDP is sent while an SFU has a call that its caller has given up. -/
theorem executing_subsingleton_of_reaches (signalingId : NodeId) {pool : registryCalls.Pool}
    (run : Reaches Orderly ⟨(Node.fresh signalingId, {}), []⟩ pool) (peer : RoomId × Nickname) :
    {rpc ∈ pool.state.1.executing | rpc.request.negotiates = some peer}.card ≤ 1 := by
  have start : Queued (Node.fresh signalingId, {}) 0 := by
    refine ⟨fun key first second member => ?_, fun key mutex mutex' found member => ?_,
      Multiset.nodup_zero, fun mutex member => ?_, fun rpc member => ?_, fun first member => ?_⟩
    · cases Multiset.notMem_zero _ member
    · cases Multiset.notMem_zero _ member
    · cases Multiset.notMem_zero _ member
    · cases Finset.notMem_empty _ member
    · cases Finset.notMem_empty _ member
  have opened : queueing.Holds ⟨(Node.fresh signalingId, {}), []⟩ := .of_quiescent start
  have queued := (opened.reaches queueing_stable run).1
  rw [Finset.card_le_one]
  intro first member second member'
  obtain ⟨running, own⟩ := Finset.mem_filter.mp member
  obtain ⟨running', own'⟩ := Finset.mem_filter.mp member'
  exact queued.one first (Finset.mem_union_right _ running) second
    (Finset.mem_union_right _ running') peer own own'

end

/-! ## Two offers of one peer -/

instance : ∀ state phase op others, Decidable (Orderly state phase op others) := by
  intro (state : Node × History) phase op (others : Multiset Phase)
  unfold Orderly
  split <;> infer_instance

/-- The request that carries an offer. -/
def offered (sdp : String) : Request := .handleSdp "room" "bob" sdp .offer

/-- A request reaches the SFU. -/
theorem reaches_executing {guard : registryCalls.Guard} {node : Node} {history : History}
    {threads : List registryCalls.Thread} {rpc : Rpc} (sent : rpc ∈ node.inFlight) :
    Reaches guard ⟨(node, history), threads⟩ ⟨({ node with
      inFlight := node.inFlight.erase rpc
      executing := insert rpc node.executing }, history), threads⟩ :=
  .single (.environment ⟨.starts sent, rfl⟩)

/-- Both requests reach the SFU. -/
theorem two_executing {guard : registryCalls.Guard} {start pool : registryCalls.Pool}
    (run : Reaches guard start pool)
    (sent : ⟨0, offered "first"⟩ ∈ pool.state.1.inFlight ∧
      ⟨1, offered "second"⟩ ∈ pool.state.1.inFlight) :
    ∃ pool' : registryCalls.Pool, Reaches guard start pool' ∧
      1 < {rpc ∈ pool'.state.1.executing |
        rpc.request.negotiates = some ("room", "bob")}.card := by
  obtain ⟨⟨node, history⟩, threads⟩ := pool
  obtain ⟨first, second⟩ := sent
  have later : (⟨1, offered "second"⟩ : Rpc) ∈ node.inFlight.erase ⟨0, offered "first"⟩ :=
    Finset.mem_erase.mpr ⟨by decide, second⟩
  refine ⟨_, (run.trans (reaches_executing first)).trans (reaches_executing later), ?_⟩
  refine Finset.one_lt_card.mpr ⟨⟨0, offered "first"⟩, ?_, ⟨1, offered "second"⟩, ?_, by decide⟩
  · exact Finset.mem_filter.mpr
      ⟨Finset.mem_insert_of_mem (Finset.mem_insert_self _ _), rfl⟩
  · exact Finset.mem_filter.mpr ⟨Finset.mem_insert_self _ _, rfl⟩

/-- The second offer waits for the first. -/
theorem executing_subsingleton_of_reaches_waiting : ∃ pool : registryCalls.Pool,
    Reaches Orderly ⟨(Node.fresh "node", {}), []⟩ pool ∧
      ⟨0, offered "first"⟩ ∈ pool.state.1.executing ∧
      {rpc ∈ pool.state.1.executing | rpc.request.negotiates = some ("room", "bob")}.card ≤ 1 := by
  have replayed : (registrySampler.replay Orderly
      ([0, 0, 1, 0, 0, 0, 0].map fun position => (position, .ok { success := true }))
      ⟨(Node.fresh "node", {}), launched [.handleSdp "sfu" "room" "bob" "first" "offer",
        .handleSdp "sfu" "room" "bob" "second" "offer"]⟩).any
        (fun pool => ⟨0, offered "first"⟩ ∈ pool.state.1.inFlight) = true := by
    decide +kernel
  obtain ⟨⟨⟨node, history⟩, threads⟩, run, passed⟩ := Sampler.exists_of_replay replayed
  have run := ((reaches_launched _ _).trans run).trans
    (reaches_executing (of_decide_eq_true passed))
  exact ⟨_, run, Finset.mem_insert_self _ _,
    executing_subsingleton_of_reaches "node" run ("room", "bob")⟩

/-- **Two negotiations for one peer**: the mutex is removed while the first call holds it. -/
theorem two_negotiations : ∃ pool : registryCalls.Pool,
    Reaches unguarded ⟨(Node.fresh "node", {}), []⟩ pool ∧
      1 < {rpc ∈ pool.state.1.executing |
        rpc.request.negotiates = some ("room", "bob")}.card := by
  have replayed : (registrySampler.replay unguarded
      ([0, 0, 0, 0, 0, 0, 1, 1, 1, 1, 1, 1].map fun position =>
        (position, .ok { success := true }))
      ⟨(Node.fresh "node", {}), launched [.handleSdp "sfu" "room" "bob" "first" "offer",
        .cleanupLocalPeerState "room" "bob",
        .handleSdp "sfu" "room" "bob" "second" "offer"]⟩).any
        (fun pool => ⟨0, offered "first"⟩ ∈ pool.state.1.inFlight ∧
          ⟨1, offered "second"⟩ ∈ pool.state.1.inFlight) = true := by
    decide +kernel
  obtain ⟨pool, run, passed⟩ := Sampler.exists_of_replay replayed
  exact two_executing ((reaches_launched _ _).trans run) (of_decide_eq_true passed)

end Callifornia.Signaling.SfuRegistry
