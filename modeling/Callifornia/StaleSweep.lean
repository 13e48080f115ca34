import Callifornia.Concurrency.Completion
import Callifornia.Concurrency.Worklist
import Callifornia.Replay
import Callifornia.Signaling.Footprint
import Callifornia.Signaling.Websocket

/-! # Detaching the peers that cannot be reached

Peers whose channel refused a message are detached one after the other. Each departure is
announced to those who are left, and whoever cannot be told is to be detached too.
-/

namespace Callifornia.StaleSweep

open Concurrency Concurrency.Program Concurrency.Worklist FiniteMap Store Signaling

/-! ## Sweeps -/

/-- A message offered to a peer, and whether its channel took it. -/
structure Offer where
  nickname : Nickname
  message : ServerMessage
  accepted : Bool
  deriving DecidableEq

/-- Whom the broadcast under way has still to be sent to, and what has been offered. -/
structure Log where
  pending : List (Nickname × ConnectionId) := []
  offers : List Offer := []

/-- A broadcast reads its targets and then sends to each in turn. -/
def Log.advance (log : Log) : (op : Op) → op.Reply → Log
  | .peers _ (.targets ..), targets => { log with pending := targets }
  | .trySend _ message, accepted =>
      match log.pending with
      | [] => log
      | target :: pending =>
          { pending, offers := log.offers ++ [⟨target.1, message, accepted⟩] }
  | _, _ => log

/-- A send to this peer has failed. -/
def Log.Refused (log : Log) (nickname : Nickname) : Prop :=
  ∃ offer ∈ log.offers, offer.nickname = nickname ∧ offer.accepted = false

instance (log : Log) (nickname : Nickname) : Decidable (log.Refused nickname) :=
  inferInstanceAs (Decidable (∃ offer ∈ log.offers, _))

section Steps

variable (state : State) (answers : ConnectionId → Bool → Prop)

/-- The peers registered on the node. -/
def peersOf (world : World) : PeerRegistry := (world.nodes state.node).peers

/-- The effect of a step while nobody else changes the registry. A channel answers as it
may, and whatever else is asked may fail or change. -/
def Effect : (op : Op) → World → op.Reply → World → Prop
  | .peers node command, before, reply, after => World.exec (.peers node command) before reply after
  | .trySend sender _, before, reply, after =>
      answers sender reply ∧ peersOf state after = peersOf state before
  | _, before, _, after => peersOf state after = peersOf state before

/-- The effect of a step, which is logged. -/
def exec (op : Op) (before : World × Log) (reply : op.Reply) (after : World × Log) : Prop :=
  Effect state answers op before.1 reply after.1 ∧ after.2 = before.2.advance op reply

/-- The step neither uses the registry nor a channel. -/
def Quiet : Op → Prop
  | .redis _ | .unixNow | .deletePeer .. => True
  | _ => False

end Steps

section Rounds

variable {state : State} {answers : ConnectionId → Bool → Prop} {roomId : RoomId}
  {nickname : Nickname} {reason : String} {now : World × Log} {payload : ServerMessage}

/-- A quiet program completes and leaves the peers and the log. -/
theorem quiet_completes {α : Type} {program : Call α} (only : program.Only Quiet) :
    program.Completes (exec state answers) now fun _ after =>
      peersOf state after.1 = peersOf state now.1 ∧ after.2 = now.2 := by
  refine only.completes (fun op before quiet => ?_) ?_ ⟨rfl, rfl⟩
  · cases op with
    | redis => exact ⟨.error .timeout, before, rfl, rfl⟩
    | unixNow => exact ⟨0, before, rfl, rfl⟩
    | deletePeer => exact ⟨.error .timeout, before, rfl, rfl⟩
    | _ => exact quiet.elim
  · intro op before reply after quiet kept step
    cases op with
    | redis | unixNow | deletePeer => exact ⟨step.1.trans kept.1, step.2.trans kept.2⟩
    | _ => exact quiet.elim

/-- A target has been offered the message. -/
structure Offered (answers : ConnectionId → Bool → Prop) (payload : ServerMessage)
    (target : Nickname × ConnectionId) (offer : Offer) : Prop where
  nickname : offer.nickname = target.1
  message : offer.message = payload
  answered : answers target.2 offer.accepted

/-- Those who refused an offer. -/
def refusals (offers : List Offer) : List Nickname :=
  (offers.filter (!·.accepted)).map Offer.nickname

/-- A nickname is refused by an offer to it that was not accepted. -/
theorem mem_refusals {offers : List Offer} : nickname ∈ refusals offers ↔
    ∃ offer ∈ offers, offer.nickname = nickname ∧ offer.accepted = false := by
  simp only [refusals, List.mem_map, List.mem_filter, Bool.not_eq_true']
  exact exists_congr fun offer => by tauto

/-- Each target is offered the message once, and those who refuse it are returned. -/
theorem sendToEach_completes (total : ∀ sender, ∃ accepted, answers sender accepted)
    (targets : List (Nickname × ConnectionId)) (pending : now.2.pending = targets) :
    (State.sendToEach payload targets).Completes (exec state answers) now fun stale after =>
      ∃ news, List.Forall₂ (Offered answers payload) targets news ∧ stale = refusals news ∧
        peersOf state after.1 = peersOf state now.1 ∧
        after.2 = ⟨[], now.2.offers ++ news⟩ := by
  induction targets generalizing now with
  | nil =>
      refine ⟨[], .nil, rfl, rfl, ?_⟩
      rw [List.append_nil, ← pending]
  | cons target targets ih =>
      obtain ⟨accepted, answered⟩ := total target.2
      refine ⟨⟨accepted, (now.1, now.2.advance (.trySend target.2 payload) accepted),
        ⟨answered, rfl⟩, rfl⟩, fun accepted middle step => ?_⟩
      obtain ⟨⟨answered, kept⟩, logged⟩ := step
      have logged : middle.2 =
          ⟨targets, now.2.offers ++ [⟨target.1, payload, accepted⟩]⟩ := by
        rw [logged, Log.advance, pending]
      refine (ih (congrArg Log.pending logged)).bind ?_
      rintro stale after ⟨news, offered, rfl, same, last⟩
      refine ⟨⟨target.1, payload, accepted⟩ :: news, .cons ⟨rfl, rfl, answered⟩ offered, ?_,
        same.trans kept, ?_⟩
      · cases accepted <;> rfl
      · rw [last, logged, List.append_assoc]
        rfl

/-- The offers of a payload name its targets. -/
theorem names_of_offered {targets : List (Nickname × ConnectionId)} {news : List Offer}
    (offered : List.Forall₂ (Offered answers payload) targets news) :
    news.map Offer.nickname = targets.map Prod.fst := by
  induction offered with
  | nil => rfl
  | cons first _ ih => rw [List.map_cons, List.map_cons, first.nickname, ih]

/-- Each offer goes to a target. -/
theorem exists_target {targets : List (Nickname × ConnectionId)} {news : List Offer}
    (offered : List.Forall₂ (Offered answers payload) targets news) {offer : Offer}
    (member : offer ∈ news) : ∃ target ∈ targets, Offered answers payload target offer := by
  induction offered with
  | nil => cases member
  | cons first _ ih =>
      rcases List.mem_cons.mp member with rfl | member
      · exact ⟨_, List.mem_cons_self, first⟩
      · obtain ⟨target, listed, offered⟩ := ih member
        exact ⟨target, List.mem_cons_of_mem _ listed, offered⟩

/-- A registry has targets for every broadcast. -/
theorem exists_targets (peers : PeerRegistry) (roomId : RoomId)
    (exceptNickname : Option Nickname) :
    ∃ targets, PeerRegistry.Targets peers roomId exceptNickname targets := by
  let others := (PeerRegistry.nicknames peers roomId).filter (exceptNickname ≠ some ·)
  let senderOf nickname := ((peers.lookup (roomId, nickname)).map PeerEntry.sender).getD 0
  refine ⟨others.toList.map fun nickname => (nickname, senderOf nickname), ?_, ?_⟩
  · rw [List.map_map]
    exact (List.map_id _).symm ▸ others.nodup_toList
  · intro nickname sender
    simp only [List.mem_map, Finset.mem_toList, Prod.mk.injEq, others, Finset.mem_filter,
      PeerRegistry.mem_nicknames, ← Finmap.lookup_isSome, Option.isSome_iff_exists]
    constructor
    · rintro ⟨_, ⟨⟨entry, found⟩, other⟩, rfl, rfl⟩
      exact ⟨other, entry, found, by simp [senderOf, found]⟩
    · rintro ⟨other, entry, found, rfl⟩
      exact ⟨nickname, ⟨⟨entry, found⟩, other⟩, rfl, by simp [senderOf, found]⟩

/-- Everybody else in a room has been told that a peer left. -/
structure Told (answers : ConnectionId → Bool → Prop) (peers : PeerRegistry) (roomId : RoomId)
    (nickname : Nickname) (news : List Offer) : Prop where
  once : (news.map Offer.nickname).Nodup
  receivers : ∀ other, other ∈ news.map Offer.nickname ↔
    other ≠ nickname ∧ (roomId, other) ∈ peers
  message : ∀ offer ∈ news, offer.message = .participantLeft nickname
  answered : ∀ offer ∈ news, ∃ entry, peers.lookup (roomId, offer.nickname) = some entry ∧
    answers entry.sender offer.accepted

/-- A departure is told to everybody else in the room. -/
theorem broadcast_completes (total : ∀ sender, ∃ accepted, answers sender accepted) :
    (state.broadcastToRoom roomId (some nickname) (.participantLeft nickname)).Completes
      (exec state answers) now fun stale after =>
        ∃ news, Told answers (peersOf state now.1) roomId nickname news ∧
          stale = refusals news ∧ peersOf state after.1 = peersOf state now.1 ∧
          after.2.offers = now.2.offers ++ news := by
  refine ⟨?_, fun targets middle step => ?_⟩
  · obtain ⟨targets, listed⟩ := exists_targets (peersOf state now.1) roomId (some nickname)
    exact ⟨targets, (_, _), ⟨_, ⟨listed, rfl⟩, rfl⟩, rfl⟩
  · obtain ⟨⟨_, ⟨⟨once, listed⟩, rfl⟩, same⟩, logged⟩ := step
    have kept : peersOf state middle.1 = peersOf state now.1 := by
      rw [peersOf, same]
      simp [World.setNode, peersOf]
    refine (sendToEach_completes total targets (congrArg Log.pending logged)).mono ?_
    rintro stale after ⟨news, offered, rfl, same, last⟩
    have names := names_of_offered offered
    refine ⟨news, ⟨names ▸ once, fun other => ?_, fun offer member => ?_, fun offer member => ?_⟩,
      rfl, same.trans kept, ?_⟩
    · rw [names, ← Finmap.lookup_isSome, Option.isSome_iff_exists]
      simp only [List.mem_map, Prod.exists, exists_and_right, exists_eq_right, listed, ne_eq,
        Option.some.injEq, exists_and_left, eq_comm (a := other)]
      refine and_congr_right fun _ => ⟨fun ⟨_, entry, found, _⟩ => ⟨entry, found⟩, ?_⟩
      exact fun ⟨entry, found⟩ => ⟨_, entry, found, rfl⟩
    · obtain ⟨target, -, offered⟩ := exists_target offered member
      exact offered.message
    · obtain ⟨target, member, offered⟩ := exists_target offered member
      obtain ⟨-, entry, found, same⟩ := (listed target.1 target.2).mp member
      exact ⟨entry, offered.nickname ▸ found, same ▸ offered.answered⟩
    · rw [last, logged]
      rfl

/-- A detach unregisters its peer. -/
theorem detachPeer_completes :
    (state.detachPeer roomId nickname reason).Completes (exec state answers) now fun _ after =>
      peersOf state after.1 = (peersOf state now.1).erase (roomId, nickname) ∧
        after.2 = now.2 := by
  refine (quiet_completes (State.routeBeforeDetach_only trivial trivial)).bind ?_
  rintro route routed ⟨same, logged⟩
  rw [← same, ← logged]
  have unregisters : (state.unregister roomId nickname).Completes (exec state answers) routed
      fun _ after => peersOf state after.1 = (peersOf state routed.1).erase (roomId, nickname) ∧
        after.2 = routed.2 := by
    refine ⟨⟨(), (_, _), ⟨_, rfl, rfl⟩, rfl⟩, fun _ after step => ?_⟩
    obtain ⟨⟨_, rfl, same⟩, logged⟩ := step
    refine ⟨?_, logged⟩
    rw [peersOf, same]
    simp [World.setNode, peersOf]
  refine unregisters.bind ?_
  rintro _ middle ⟨erased, logged⟩
  rw [← erased, ← logged]
  refine quiet_completes (Only.bind ?_ fun roomEmpty => Only.bind ?_ fun _ => ?_)
  · exact State.detachMember_only trivial trivial trivial trivial trivial
  · exact State.detachFromSfu_only fun _ => trivial
  · cases roomEmpty with
    | false => trivial
    | true =>
        refine Only.bind (closeRoomBinding_only trivial trivial fun _ => ?_) fun _ => trivial
        exact decrementSfuRoomLoad_only trivial (fun _ => trivial) trivial trivial fun _ => trivial

/-- One round: the departure of a peer is told, and the peer detached. -/
structure Round (state : State) (answers : ConnectionId → Bool → Prop) (roomId : RoomId)
    (nickname : Nickname) (before : World × Log) (news : List Offer) (after : World × Log) :
    Prop extends Told answers (peersOf state before.1) roomId nickname news where
  registry : peersOf state after.1 = (peersOf state before.1).erase (roomId, nickname)
  offers : after.2.offers = before.2.offers ++ news

/-- The peers of the room. -/
def live (state : State) (roomId : RoomId) (now : World × Log) : Finset Nickname :=
  PeerRegistry.nicknames (peersOf state now.1) roomId

/-- A round takes its peer off the live ones. -/
theorem Round.live_eq {before after : World × Log} {news : List Offer}
    (round : Round state answers roomId nickname before news after) :
    live state roomId after = (live state roomId before).erase nickname := by
  ext other
  rw [live, PeerRegistry.mem_nicknames, round.registry, Finset.mem_erase, live,
    PeerRegistry.mem_nicknames, ← Finmap.lookup_isSome, ← Finmap.lookup_isSome, lookup_erase_if]
  by_cases same : other = nickname <;> simp [same]

/-- Those who refuse are others that are still in the room. -/
theorem Told.refused {peers : PeerRegistry} {news : List Offer}
    (told : Told answers peers roomId nickname news) :
    (refusals news).Nodup ∧
      ∀ other ∈ refusals news, other ≠ nickname ∧ (roomId, other) ∈ peers := by
  refine ⟨told.once.sublist (List.filter_sublist.map _), fun other member => ?_⟩
  obtain ⟨offer, offered, rfl, -⟩ := mem_refusals.mp member
  exact (told.receivers _).mp (List.mem_map_of_mem offered)

/-- **The loop rule.** A sweep that is granted enough rounds completes, and what every
round keeps holds when the stack is empty. -/
theorem sweep_completes (total : ∀ sender, ∃ accepted, answers sender accepted)
    {keeps : List Nickname → World × Log → Prop}
    (each : ∀ stack nickname before news after, stack.getLast? = some nickname →
      keeps stack before → Round state answers roomId nickname before news after →
      keeps (stack.dropLast ++ refusals news) after)
    (bound : ℕ) (stack : List Nickname) (start : keeps stack now)
    (enough : potential (live state roomId now) stack ≤ bound) :
    (detachStalePeers state roomId reason bound stack).Completes (exec state answers) now
      fun _ after => keeps [] after := by
  induction bound generalizing stack now with
  | zero =>
      unfold detachStalePeers
      cases top : stack.getLast? with
      | none =>
          obtain rfl := List.getLast?_eq_none_iff.mp top
          exact start
      | some nickname =>
          obtain ⟨front, rfl⟩ := List.getLast?_eq_some_iff.mp top
          simp [potential] at enough
  | succ bound ih =>
      unfold detachStalePeers
      cases top : stack.getLast? with
      | none =>
          obtain rfl := List.getLast?_eq_none_iff.mp top
          exact start
      | some nickname =>
          refine (broadcast_completes total).bind ?_
          rintro _ middle ⟨news, told, rfl, same, offers⟩
          refine detachPeer_completes.bind ?_
          rintro _ after ⟨registry, logged⟩
          have round : Round state answers roomId nickname now news after :=
            ⟨told, registry.trans (by rw [same]), by rw [logged, offers]⟩
          obtain ⟨once, others⟩ := told.refused
          refine ih _ (each stack nickname now news after top start round) ?_
          have smaller := potential_pop top once fun other member => by
            obtain ⟨apart, registered⟩ := others other member
            exact Finset.mem_erase.mpr
              ⟨apart, (PeerRegistry.mem_nicknames (peersOf state now.1)).mpr registered⟩
          rw [round.live_eq]
          exact Nat.le_of_lt_succ (smaller.trans_le enough)

end Rounds

/-! ## What a sweep leaves -/

section Complete

variable {state : State} {answers : ConnectionId → Bool → Prop} {roomId : RoomId}

/-- Part of a sweep is done: these nicknames have been popped, and whoever is to go has
been popped or is on the stack. -/
structure Swept (state : State) (roomId : RoomId) (start : PeerRegistry) (stale : List Nickname)
    (popped stack : List Nickname) (now : World × Log) : Prop where
  registry : ∀ room nickname, (peersOf state now.1).lookup (room, nickname) =
    if room = roomId ∧ nickname ∈ popped then none else start.lookup (room, nickname)
  due : ∀ nickname, nickname ∈ popped ∨ nickname ∈ stack ↔
    nickname ∈ stale ∨ now.2.Refused nickname

/-- More refusals come from more offers. -/
theorem Log.refused_append {log : Log} {news : List Offer} {nickname : Nickname}
    {after : Log} (offers : after.offers = log.offers ++ news) :
    after.Refused nickname ↔ log.Refused nickname ∨ nickname ∈ refusals news := by
  simp only [Log.Refused, offers, mem_refusals, List.mem_append, or_and_right, exists_or]

/-- **Step lemma.** A round pops one more. -/
theorem Swept.round {start : PeerRegistry} {stale popped stack : List Nickname}
    {nickname : Nickname} {before after : World × Log} {news : List Offer}
    (swept : Swept state roomId start stale popped stack before)
    (top : stack.getLast? = some nickname)
    (round : Round state answers roomId nickname before news after) :
    Swept state roomId start stale (nickname :: popped) (stack.dropLast ++ refusals news)
      after := by
  obtain ⟨front, rfl⟩ := List.getLast?_eq_some_iff.mp top
  refine ⟨fun room other => ?_, fun other => ?_⟩
  · rw [round.registry, lookup_erase_if, swept.registry]
    simp only [Prod.mk.injEq, List.mem_cons]
    by_cases here : room = roomId <;> by_cases same : other = nickname <;> simp [here, same]
  · rw [Log.refused_append round.offers, ← or_assoc, ← swept.due, List.dropLast_concat]
    simp only [List.mem_cons, List.mem_append, List.not_mem_nil, or_false]
    tauto

/-- **A sweep ends and is complete**: whoever was stale, or could not be told of a departure,
is unregistered, and everybody else stays. -/
theorem sweep_complete (state : State) (roomId : RoomId) (reason : String) (world : World)
    (stale : List Nickname) :
    ∃ rounds, ∀ bound, rounds ≤ bound →
      (detachStalePeers state roomId reason bound stale).Completes
        (exec state fun _ _ => True) (world, {}) fun _ after =>
          ∀ room nickname, (peersOf state after.1).lookup (room, nickname) =
            if room = roomId ∧ (nickname ∈ stale ∨ after.2.Refused nickname) then none
            else (peersOf state world).lookup (room, nickname) := by
  let start := peersOf state world
  refine ⟨potential (PeerRegistry.nicknames start roomId) stale, fun bound enough => ?_⟩
  let keeps (stack : List Nickname) (now : World × Log) : Prop :=
    ∃ popped, Swept state roomId start stale popped stack now
  have begins : keeps stale (world, {}) := by
    refine ⟨[], fun room nickname => ?_, fun nickname => ?_⟩
    · simp [start]
    · simp [Log.Refused]
  have each (stack nickname before news after) (top : stack.getLast? = some nickname) :
      keeps stack before → Round state (fun _ _ => True) roomId nickname before news after →
        keeps (stack.dropLast ++ refusals news) after := by
    rintro ⟨popped, swept⟩ round
    exact ⟨nickname :: popped, swept.round top round⟩
  refine (sweep_completes (fun _ => ⟨true, trivial⟩) each bound stale begins enough).mono ?_
  rintro _ after ⟨popped, swept⟩ room nickname
  have gone : nickname ∈ popped ↔ nickname ∈ stale ∨ after.2.Refused nickname := by
    rw [← swept.due]
    simp
  simp only [swept.registry, gone, start]

end Complete

/-! ## How often a departure is announced -/

section Announced

/-- How often this peer has been offered the news that the other left. -/
def Log.announcements (log : Log) (receiver departed : Nickname) : ℕ :=
  log.offers.countP fun offer =>
    offer.nickname = receiver ∧ offer.message = .participantLeft departed

variable {state : State} {roomId : RoomId} {accepts : ConnectionId → Bool}

/-- A channel answers always the same. -/
def Answers (accepts : ConnectionId → Bool) (sender : ConnectionId) (accepted : Bool) : Prop :=
  accepted = accepts sender

/-- The stale peers are those whose channel does not accept. -/
structure Stale (accepts : ConnectionId → Bool) (peers : PeerRegistry) (roomId : RoomId)
    (stale : List Nickname) : Prop where
  once : stale.Nodup
  closed : ∀ nickname ∈ stale, ∃ entry, peers.lookup (roomId, nickname) = some entry ∧
    accepts entry.sender = false
  room : ∀ nickname entry, peers.lookup (roomId, nickname) = some entry → nickname ∉ stale →
    accepts entry.sender = true

/-- **Each departure is announced once** to everybody who stays in the room. -/
def AnnouncedOnce (state : State) (roomId : RoomId) (before after : World × Log) : Prop :=
  ∀ receiver departed, receiver ∈ live state roomId after → departed ∈ live state roomId before →
    departed ∉ live state roomId after → after.2.announcements receiver departed = 1

variable {start : PeerRegistry} {stale popped stack : List Nickname} {nickname : Nickname}
  {before after : World × Log} {news : List Offer}

/-- Part of a sweep is done, in which only stale peers have been popped; each pop has been
announced to everybody who stays. -/
structure Counted (state : State) (roomId : RoomId) (start : PeerRegistry) (stale : List Nickname)
    (popped stack : List Nickname) (now : World × Log) : Prop
    extends Swept state roomId start stale popped stack now where
  only : ∀ nickname, nickname ∈ popped ∨ nickname ∈ stack → nickname ∈ stale
  announced : ∀ receiver departed, (roomId, receiver) ∈ start → receiver ∉ stale →
    now.2.announcements receiver departed = popped.count departed

/-- Somebody who was told of a departure was told once. -/
theorem Told.announcements {peers : PeerRegistry} {receiver : Nickname}
    {answers : ConnectionId → Bool → Prop} (told : Told answers peers roomId nickname news)
    (stays : receiver ≠ nickname) (registered : (roomId, receiver) ∈ peers) (departed : Nickname) :
    (news.countP fun offer =>
      offer.nickname = receiver ∧ offer.message = .participantLeft departed) =
        if nickname = departed then 1 else 0 := by
  have named : (news.map Offer.nickname).count receiver = 1 :=
    List.count_eq_one_of_mem told.once ((told.receivers receiver).mpr ⟨stays, registered⟩)
  rw [List.count, List.countP_map] at named
  split
  · rename_i same
    rw [← named]
    refine List.countP_congr fun offer member => ?_
    simp [told.message offer member, same]
  · rename_i other
    refine List.countP_eq_zero.mpr fun offer member => ?_
    simp [told.message offer member, other]

/-- Those who refuse are the stale peers left. -/
theorem Round.mem_refusals (swept : Swept state roomId start stale popped stack before)
    (staleness : Stale accepts start roomId stale)
    (round : Round state (Answers accepts) roomId nickname before news after) (other : Nickname) :
    other ∈ refusals news ↔ other ∈ stale ∧ other ∉ popped ∧ other ≠ nickname := by
  have found : (peersOf state before.1).lookup (roomId, other) =
      if other ∈ popped then none else start.lookup (roomId, other) := by
    simp [swept.registry]
  constructor
  · intro refused
    obtain ⟨apart, -⟩ := round.toTold.refused.2 other refused
    obtain ⟨offer, member, rfl, declined⟩ := StaleSweep.mem_refusals.mp refused
    obtain ⟨entry, registered, answered⟩ := round.answered offer member
    rw [found] at registered
    split at registered
    · cases registered
    · rename_i kept
      refine ⟨?_, kept, apart⟩
      by_contra fresh
      have accepted := staleness.room _ entry registered fresh
      rw [← answered, declined] at accepted
      cases accepted
  · rintro ⟨member, kept, apart⟩
    obtain ⟨entry, registered, closed⟩ := staleness.closed other member
    rw [if_neg kept, registered] at found
    have told : other ∈ news.map Offer.nickname :=
      (round.receivers other).mpr ⟨apart, Finmap.mem_of_lookup_eq_some found⟩
    obtain ⟨offer, offered, rfl⟩ := List.mem_map.mp told
    obtain ⟨_, registered', answered⟩ := round.answered offer offered
    rw [found] at registered'
    cases registered'
    exact StaleSweep.mem_refusals.mpr ⟨offer, offered, rfl, answered.trans closed⟩

/-- **Step lemma.** A round announces one pop. -/
theorem Counted.round (counted : Counted state roomId start stale popped stack before)
    (staleness : Stale accepts start roomId stale) (top : stack.getLast? = some nickname)
    (round : Round state (Answers accepts) roomId nickname before news after) :
    Counted state roomId start stale (nickname :: popped) (stack.dropLast ++ refusals news)
      after := by
  have due : nickname ∈ stale := counted.only nickname (.inr (List.mem_of_getLast? top))
  refine ⟨counted.toSwept.round top round, fun other member => ?_,
    fun receiver departed registered stays => ?_⟩
  · rcases member with member | member
    · rcases List.mem_cons.mp member with rfl | member
      · exact due
      · exact counted.only other (.inl member)
    · rcases List.mem_append.mp member with member | member
      · exact counted.only other (.inr (List.mem_of_mem_dropLast member))
      · exact ((round.mem_refusals counted.toSwept staleness other).mp member).1
  · have kept : receiver ∉ popped := fun member => stays (counted.only receiver (.inl member))
    have apart : receiver ≠ nickname := fun same => stays (same ▸ due)
    have present : (roomId, receiver) ∈ peersOf state before.1 := by
      rw [← Finmap.lookup_isSome, counted.registry, if_neg fun both => kept both.2]
      exact Finmap.lookup_isSome.mpr registered
    rw [Log.announcements, round.offers, List.countP_append, ← Log.announcements,
      counted.announced receiver departed registered stays,
      round.toTold.announcements apart present, List.count_cons]
    simp only [beq_iff_eq]

/-- A sweep of stale peers, and what it keeps of its stack besides. -/
theorem counted_completes {world : World} {reason : String} {bound : ℕ}
    (staleness : Stale accepts (peersOf state world) roomId stale)
    (enough : potential (PeerRegistry.nicknames (peersOf state world) roomId) stale ≤ bound)
    (keeps : List Nickname → List Nickname → Prop) (begins : keeps [] stale)
    (each : ∀ popped stack nickname more, keeps popped stack → stack.getLast? = some nickname →
      nickname ∈ stale → (∀ other, other ∈ more ↔
        other ∈ stale ∧ other ∉ popped ∧ other ≠ nickname) →
      keeps (nickname :: popped) (stack.dropLast ++ more)) :
    (detachStalePeers state roomId reason bound stale).Completes (exec state (Answers accepts))
      (world, {}) fun _ after => ∃ popped,
        Counted state roomId (peersOf state world) stale popped [] after ∧ keeps popped [] := by
  let both (stack : List Nickname) (after : World × Log) : Prop :=
    ∃ popped, Counted state roomId (peersOf state world) stale popped stack after ∧
      keeps popped stack
  have first : both stale (world, {}) := by
    refine ⟨[], ⟨⟨fun room nickname => ?_, fun nickname => ?_⟩, fun nickname member => ?_,
      fun receiver departed _ _ => ?_⟩, begins⟩
    · simp
    · simp [Log.Refused]
    · simpa using member
    · simp [Log.announcements]
  have round (stack nickname before news after) (top : stack.getLast? = some nickname) :
      both stack before → Round state (Answers accepts) roomId nickname before news after →
        both (stack.dropLast ++ refusals news) after := by
    rintro ⟨popped, counted, kept⟩ round
    refine ⟨nickname :: popped, counted.round staleness top round, ?_⟩
    exact each popped stack nickname _ kept top
      (counted.only nickname (.inr (List.mem_of_getLast? top)))
      (round.mem_refusals counted.toSwept staleness)
  have total (sender : ConnectionId) : ∃ accepted, Answers accepts sender accepted :=
    ⟨accepts sender, rfl⟩
  exact sweep_completes total round bound stale first enough

/-- The peers left in the room are those who were not stale. -/
theorem Counted.mem_live {world : World} (counted : Counted state roomId (peersOf state world) stale
    popped [] after) (nickname : Nickname) :
    nickname ∈ live state roomId after ↔ (roomId, nickname) ∈ peersOf state world ∧
      nickname ∉ stale := by
  have gone : nickname ∈ popped ↔ nickname ∈ stale := by
    refine ⟨fun member => counted.only nickname (.inl member), fun member => ?_⟩
    exact ((counted.due nickname).mpr (.inl member)).resolve_right List.not_mem_nil
  rw [live, PeerRegistry.mem_nicknames, ← Finmap.lookup_isSome, counted.registry,
    ← Finmap.lookup_isSome]
  by_cases member : nickname ∈ stale <;> simp [gone, member]

/-- Of several distinct items one is not the last. -/
theorem exists_earlier (once : stale.Nodup) (several : 1 < stale.length) :
    ∃ first ∈ stale, stale.getLast? ≠ some first := by
  obtain ⟨first, second, rest, rfl⟩ : ∃ first second rest, stale = first :: second :: rest := by
    match stale, several with
    | first :: second :: rest, _ => exact ⟨first, second, rest, rfl⟩
  refine ⟨first, List.mem_cons_self, fun last => (List.nodup_cons.mp once).1 ?_⟩
  rw [List.getLast?_cons_cons] at last
  exact List.mem_of_getLast? last

/-- When there are several stale peers, all but the last of the list are popped twice. -/
theorem pops_twice {first : Nickname} (distinct : stale.getLast? ≠ some first)
    (member : first ∈ stale) {popped stack more : List Nickname}
    (kept : (popped = [] ∧ stack = stale) ∨ 2 ≤ popped.count first + stack.count first)
    (top : stack.getLast? = some nickname)
    (pushed : ∀ other, other ∈ more ↔ other ∈ stale ∧ other ∉ popped ∧ other ≠ nickname) :
    2 ≤ (nickname :: popped).count first + (stack.dropLast ++ more).count first := by
  rcases kept with ⟨rfl, rfl⟩ | twice
  · have apart : first ≠ nickname := by
      rintro rfl
      exact distinct top
    have again : 0 < more.count first :=
      List.count_pos_iff.mpr ((pushed first).mpr ⟨member, List.not_mem_nil, apart⟩)
    obtain ⟨front, rfl⟩ := List.getLast?_eq_some_iff.mp top
    have waits : 0 < front.count first := by
      refine List.count_pos_iff.mpr ((List.mem_append.mp member).resolve_right fun last => ?_)
      exact apart (List.mem_singleton.mp last)
    rw [List.dropLast_concat, List.count_append]
    omega
  · obtain ⟨front, rfl⟩ := List.getLast?_eq_some_iff.mp top
    rw [List.count_append, List.count_singleton] at twice
    rw [List.dropLast_concat, List.count_append, List.count_cons]
    omega

/-- A single stale peer is popped once. -/
theorem pops_once (few : stale.length ≤ 1) {more : List Nickname}
    (once : (popped ++ stack).Nodup) (top : stack.getLast? = some nickname)
    (member : nickname ∈ stale)
    (pushed : ∀ other ∈ more, other ∈ stale ∧ other ≠ nickname) :
    (nickname :: popped ++ (stack.dropLast ++ more)).Nodup := by
  obtain ⟨front, rfl⟩ := List.getLast?_eq_some_iff.mp top
  have none : more = [] := by
    refine List.eq_nil_iff_forall_not_mem.mpr fun other listed => ?_
    obtain ⟨due, apart⟩ := pushed other listed
    obtain ⟨only, rfl⟩ := List.length_eq_one_iff.mp
      (le_antisymm few (List.length_pos_of_mem member))
    exact apart ((List.mem_singleton.mp due).trans (List.mem_singleton.mp member).symm)
  rw [none, List.append_nil, List.dropLast_concat]
  refine (List.Perm.nodup_iff ?_).mpr once
  rw [← List.append_assoc]
  exact (List.perm_append_singleton nickname (popped ++ front)).symm

/-- Each departure is announced once when no peer is taken up twice. -/
theorem announcedOnce_of_nodup {world : World}
    (counted : Counted state roomId (peersOf state world) stale popped [] after)
    (once : popped.Nodup) : AnnouncedOnce state roomId (world, {}) after := by
  intro receiver departed stays present left
  obtain ⟨registered, fresh⟩ := (counted.mem_live receiver).mp stays
  have due : departed ∈ stale := by
    by_contra other
    exact left ((counted.mem_live departed).mpr
      ⟨(PeerRegistry.mem_nicknames (peersOf state world)).mp present, other⟩)
  rw [counted.announced receiver departed registered fresh]
  exact List.count_eq_one_of_mem once
    (((counted.due departed).mpr (.inl due)).resolve_right List.not_mem_nil)

/-- A departure taken up twice is announced twice to whoever stays. -/
theorem not_announcedOnce {world : World}
    (staleness : Stale accepts (peersOf state world) roomId stale)
    (counted : Counted state roomId (peersOf state world) stale popped [] after)
    {receiver departed : Nickname} (registered : (roomId, receiver) ∈ peersOf state world)
    (fresh : receiver ∉ stale) (due : departed ∈ stale) (twice : 2 ≤ popped.count departed) :
    ¬ AnnouncedOnce state roomId (world, {}) after := by
  intro announced
  obtain ⟨entry, found, -⟩ := staleness.closed departed due
  have once := announced receiver departed ((counted.mem_live receiver).mpr ⟨registered, fresh⟩)
    ((PeerRegistry.mem_nicknames _).mpr (Finmap.mem_of_lookup_eq_some found))
    fun left => ((counted.mem_live departed).mp left).2 due
  rw [counted.announced receiver departed registered fresh] at once
  omega

/-- A sweep of several stale peers pops one of them twice. -/
theorem several_completes {world : World} {reason : String} {bound : ℕ}
    (staleness : Stale accepts (peersOf state world) roomId stale)
    (enough : potential (PeerRegistry.nicknames (peersOf state world) roomId) stale ≤ bound)
    (several : 1 < stale.length) :
    (detachStalePeers state roomId reason bound stale).Completes (exec state (Answers accepts))
      (world, {}) fun _ after => ∃ popped,
        Counted state roomId (peersOf state world) stale popped [] after ∧
          ∃ departed ∈ stale, 2 ≤ popped.count departed := by
  obtain ⟨first, member, distinct⟩ := exists_earlier staleness.once several
  refine (counted_completes staleness enough (fun popped stack => (popped = [] ∧ stack = stale) ∨
    2 ≤ popped.count first + stack.count first) (.inl ⟨rfl, rfl⟩) ?_).mono ?_
  · exact fun popped stack nickname more kept top _ pushed =>
      .inr (pops_twice distinct member kept top pushed)
  · rintro _ after ⟨popped, counted, ⟨-, rfl⟩ | twice⟩
    · cases member
    · exact ⟨popped, counted, first, member, twice⟩

/-- **Each departure is announced once if and only if** there is at most one stale peer, or
nobody to tell. -/
theorem announcedOnce_iff (state : State) (roomId : RoomId) (reason : String) (world : World)
    (accepts : ConnectionId → Bool) (stale : List Nickname)
    (staleness : Stale accepts (peersOf state world) roomId stale) :
    ∃ rounds, ∀ bound, rounds ≤ bound →
      (detachStalePeers state roomId reason bound stale).Completes (exec state (Answers accepts))
        (world, {}) fun _ after => AnnouncedOnce state roomId (world, {}) after ↔
          stale.length ≤ 1 ∨
            ∀ nickname, (roomId, nickname) ∈ peersOf state world → nickname ∈ stale := by
  refine ⟨potential (PeerRegistry.nicknames (peersOf state world) roomId) stale,
    fun bound enough => ?_⟩
  rcases Nat.lt_or_ge 1 stale.length with several | few
  · refine (several_completes staleness enough several).mono ?_
    rintro _ after ⟨popped, counted, departed, member, twice⟩
    by_cases alone : ∀ nickname, (roomId, nickname) ∈ peersOf state world → nickname ∈ stale
    · refine iff_of_true (fun receiver departed stays _ _ => ?_) (.inr alone)
      obtain ⟨registered, fresh⟩ := (counted.mem_live receiver).mp stays
      exact absurd (alone receiver registered) fresh
    · obtain ⟨receiver, others⟩ := not_forall.mp alone
      obtain ⟨registered, fresh⟩ := Classical.not_imp.mp others
      refine iff_of_false ?_ (not_or.mpr ⟨Nat.not_le.mpr several, alone⟩)
      exact not_announcedOnce staleness counted registered fresh member twice
  · refine (counted_completes staleness enough (fun popped stack => (popped ++ stack).Nodup)
      staleness.once ?_).mono ?_
    · exact fun popped stack nickname more once top due pushed => pops_once few once top due
        fun other member => ⟨((pushed other).mp member).1, ((pushed other).mp member).2.2⟩
    · rintro _ after ⟨popped, counted, once⟩
      rw [List.append_nil] at once
      exact iff_of_true (announcedOnce_of_nodup counted once) (.inl few)

/-! ## A room of three -/

/-- The peers of a room. -/
def trio : PeerRegistry :=
  (((∅ : PeerRegistry).insert ("room-1", "alice") ⟨0, none⟩).insert ("room-1", "bob")
    ⟨1, none⟩).insert ("room-1", "carol") ⟨2, none⟩

/-- A deployment with this room. -/
def gathered : World :=
  World.fresh.setNode sampleNode.node { peers := trio, sessions := ⟨∅, ∅⟩ }

/-- The three peers of the run are registered at the node. -/
theorem peersOf_gathered : peersOf sampleNode gathered = trio := by
  simp [peersOf, gathered, World.setNode]

/-- Each of the three has its own sender. -/
theorem sender_trio {nickname : Nickname} {entry : PeerEntry}
    (found : trio.lookup ("room-1", nickname) = some entry) :
    (nickname = "carol" ∧ entry.sender = 2) ∨ (nickname = "bob" ∧ entry.sender = 1) ∨
      nickname = "alice" ∧ entry.sender = 0 := by
  simp only [trio, lookup_insert_if, Prod.mk.injEq, true_and, Finmap.lookup_empty] at found
  split at found
  · rename_i same
    cases found
    exact .inl ⟨same, rfl⟩
  · split at found
    · rename_i same
      cases found
      exact .inr (.inl ⟨same, rfl⟩)
    · split at found
      · rename_i same
        cases found
        exact .inr (.inr ⟨same, rfl⟩)
      · cases found

/-- One of them cannot be reached. -/
theorem stale_alice : Stale (· != 0) (peersOf sampleNode gathered) "room-1" ["alice"] := by
  rw [peersOf_gathered]
  refine ⟨List.nodup_singleton _, fun nickname member => ?_, fun nickname entry found fresh => ?_⟩
  · obtain rfl := List.mem_singleton.mp member
    exact ⟨⟨0, none⟩, rfl, rfl⟩
  · rcases sender_trio found with ⟨-, same⟩ | ⟨-, same⟩ | ⟨rfl, -⟩
    · rw [same]
      rfl
    · rw [same]
      rfl
    · exact absurd List.mem_cons_self fresh

/-- The sweep that begins with Alice announces each departure once. -/
theorem announcedOnce_alice : ∃ bound after,
    (detachStalePeers sampleNode "room-1" "stale_sender" bound ["alice"]).Runs
      (exec sampleNode (Answers (· != 0))) (gathered, {}) () after ∧
    AnnouncedOnce sampleNode "room-1" (gathered, {}) after := by
  obtain ⟨rounds, completes⟩ := announcedOnce_iff sampleNode "room-1" "stale_sender" gathered
    (· != 0) ["alice"] stale_alice
  obtain ⟨_, after, run, announced⟩ := (completes rounds le_rfl).exists_run
  exact ⟨rounds, after, run, announced.mpr (.inl le_rfl)⟩

/-- Two of them cannot be reached. -/
theorem stale_pair : Stale (· == 2) (peersOf sampleNode gathered) "room-1" ["alice", "bob"] := by
  rw [peersOf_gathered]
  refine ⟨by decide, fun nickname member => ?_, fun nickname entry found fresh => ?_⟩
  · rcases List.mem_pair.mp member with rfl | rfl
    · exact ⟨⟨0, none⟩, rfl, rfl⟩
    · exact ⟨⟨1, none⟩, rfl, rfl⟩
  · rcases sender_trio found with ⟨-, same⟩ | ⟨rfl, -⟩ | ⟨rfl, -⟩
    · rw [same]
      rfl
    · exact absurd (List.mem_cons_of_mem _ List.mem_cons_self) fresh
    · exact absurd List.mem_cons_self fresh

/-- **Two peers leave, and the third is told of one of them twice.** -/
theorem announced_twice :
    Stale (· == 2) (peersOf sampleNode gathered) "room-1" ["alice", "bob"] ∧ ∃ bound after,
      (detachStalePeers sampleNode "room-1" "stale_sender" bound ["alice", "bob"]).Runs
        (exec sampleNode (Answers (· == 2))) (gathered, {}) () after ∧
      ¬ AnnouncedOnce sampleNode "room-1" (gathered, {}) after := by
  obtain ⟨_, after, run, popped, counted, departed, member, twice⟩ :=
    (@several_completes sampleNode "room-1" _ _ gathered "stale_sender" _ stale_pair le_rfl
      (by decide)).exists_run
  have carol : ("room-1", "carol") ∈ peersOf sampleNode gathered := by
    rw [peersOf_gathered]
    exact Finmap.mem_of_lookup_eq_some rfl
  exact ⟨stale_pair, _, after, run,
    not_announcedOnce stale_pair counted carol (by decide) member twice⟩

end Announced

end Callifornia.StaleSweep
