import Callifornia.Concurrency.Windows
import Callifornia.Sfu.Runtime

/-! # The events of a peer's connection

The WebRTC library reports the state of a peer's connection and that of its ICE transport,
each in callbacks of its own. The session tells the event router when the peer is connected
and when it is not, and one flag keeps it from telling twice that it is.
-/

namespace Callifornia.Sfu

open Concurrency

namespace PeerSession

/-- `rtc::PeerConnection::State`. -/
inductive ConnectionState
  | new | connecting | connected | disconnected | failed | closed
  deriving DecidableEq

/-- `rtc::PeerConnection::IceState`. -/
inductive IceState
  | new | checking | connected | completed | failed | disconnected | closed
  deriving DecidableEq

/-- What an event says of its peer. -/
inductive EventDetail
  | peerConnected (transportType : String)
  | peerDisconnected (reason : String)
  deriving DecidableEq

structure Event where
  roomId : RoomId
  participantId : PeerId
  detail : EventDetail
  deriving DecidableEq

/-- The part of a session its connection's callbacks use. The router, if there is one, is
known by the events it has been given. -/
structure Emitter where
  roomId : RoomId
  participantId : PeerId
  eventRouter : Option (List Event)
  peerConnectedEmitted : Bool := false
  deriving DecidableEq

namespace Emitter

variable (session : Emitter)

/-- Give an event to the router, if there is one. -/
def routeEventOrLog (detail : EventDetail) : Emitter :=
  { session with
    eventRouter := session.eventRouter.map
      (· ++ [⟨session.roomId, session.participantId, detail⟩]) }

def emitPeerConnected : Emitter :=
  if session.peerConnectedEmitted then session
  else { session with peerConnectedEmitted := true }.routeEventOrLog (.peerConnected "udp")

def emitPeerDisconnected (reason : String) : Emitter :=
  session.routeEventOrLog (.peerDisconnected reason)

def onStateChange : ConnectionState → Emitter
  | .connected => session.emitPeerConnected
  | .failed => { session.emitPeerDisconnected "failed" with peerConnectedEmitted := false }
  | .closed => { session.emitPeerDisconnected "closed" with peerConnectedEmitted := false }
  | _ => session

def onIceStateChange : IceState → Emitter
  | .connected | .completed => session.emitPeerConnected
  | .failed => session.emitPeerDisconnected "ice_failed"
  | _ => session

end Emitter

/-- One callback of the library. -/
inductive Callback
  | state (state : ConnectionState)
  | ice (state : IceState)
  deriving DecidableEq

def Emitter.on (session : Emitter) : Callback → Emitter
  | .state reported => session.onStateChange reported
  | .ice reported => session.onIceStateChange reported

/-- The connection or its ICE transport is connected now. -/
def Callback.Connects : Callback → Prop
  | .state reported => reported = .connected
  | .ice reported => reported = .connected ∨ reported = .completed

/-- The connection or its ICE transport is lost. -/
def Callback.Fails : Callback → Prop
  | .state reported => reported = .failed ∨ reported = .closed
  | .ice reported => reported = .failed

/-- A session that has been given a router, and no callback yet. -/
def fresh (roomId : RoomId) (participantId : PeerId) : Emitter :=
  { roomId, participantId, eventRouter := some [] }

variable (roomId : RoomId) (participantId : PeerId)

/-- The session after some callbacks. -/
def after (callbacks : List Callback) : Emitter :=
  callbacks.foldl Emitter.on (fresh roomId participantId)

/-- The events emitted in some callbacks. -/
def emitted (callbacks : List Callback) : List EventDetail :=
  ((after roomId participantId callbacks).eventRouter.getD []).map Event.detail

def EventDetail.Connected : EventDetail → Prop
  | .peerConnected _ => True
  | .peerDisconnected _ => False

def EventDetail.Disconnected : EventDetail → Prop
  | .peerConnected _ => False
  | .peerDisconnected _ => True

/-- **The events are well paired.** Between two disconnections a connection is told, and
whenever a callback says that the peer is connected, a connection has been told since the
last disconnection. -/
structure Paired (callbacks : List Callback) : Prop where
  between : Guarded EventDetail.Disconnected EventDetail.Connected EventDetail.Disconnected
    (emitted roomId participantId callbacks)
  again : ∀ earlier callback later, callbacks = earlier ++ callback :: later →
    callback.Connects → ¬ Open EventDetail.Disconnected EventDetail.Connected
      (emitted roomId participantId (earlier ++ [callback]))

/-- Between two callbacks that say the peer is lost one says that it is connected, and no
callback says so after an ICE failure of a peer that was connected before. -/
structure Recoverable (callbacks : List Callback) : Prop where
  between : Guarded Callback.Fails Callback.Connects Callback.Fails callbacks
  final : ∀ earlier later, callbacks = earlier ++ .ice .failed :: later →
    (∃ callback ∈ earlier, callback.Connects) → ∀ callback ∈ later, ¬ callback.Connects

/-! ## One callback more -/

section Step

variable {roomId participantId} {callbacks : List Callback} {callback : Callback}

/-- A failing callback is no connecting one. -/
theorem Callback.Fails.not_connects (fails : callback.Fails) : ¬ callback.Connects := by
  cases callback with
  | state reported =>
      rintro rfl
      exact fails.elim nofun nofun
  | ice reported =>
      cases fails
      exact fun connects => connects.elim nofun nofun

/-- What a callback does to the flag and to the events: it tells of a connection unless one
has been told, or of a disconnection, or nothing. -/
inductive Emits (flag : Bool) : Callback → Bool → List EventDetail → Prop
  | connects {callback : Callback} : callback.Connects → Emits flag callback true
      (if flag then [] else [.peerConnected "udp"])
  | resets {callback : Callback} (reason : String) : callback.Fails → callback ≠ .ice .failed →
      Emits flag callback false [.peerDisconnected reason]
  | iceFails : Emits flag (.ice .failed) flag [.peerDisconnected "ice_failed"]
  | ignores {callback : Callback} : ¬ callback.Connects → ¬ callback.Fails →
      Emits flag callback flag []

/-- What a callback does to a session with a router. -/
structure Emitter.Told (session : Emitter) (callback : Callback) (after : Emitter) : Prop where
  router : ∀ events, session.eventRouter = some events → ∃ news, after.eventRouter =
      some (events ++ news) ∧ Emits session.peerConnectedEmitted callback
        after.peerConnectedEmitted (news.map Event.detail)

/-- An event goes to the session's router, with the room and the peer. -/
theorem Emitter.routeEventOrLog_router {session : Emitter} {events : List Event}
    (detail : EventDetail) (router : session.eventRouter = some events) :
    (session.routeEventOrLog detail).eventRouter =
      some (events ++ [⟨session.roomId, session.participantId, detail⟩]) := by
  rw [routeEventOrLog, router]
  rfl

/-- A connected event is told once. -/
theorem Emitter.emitPeerConnected_told (session : Emitter) (connects : callback.Connects) :
    session.Told callback session.emitPeerConnected := by
  refine ⟨fun events router => ?_⟩
  have emits := @Emits.connects session.peerConnectedEmitted callback connects
  unfold emitPeerConnected
  split
  · rename_i told
    rw [if_pos told] at emits
    exact ⟨[], by rw [List.append_nil, router], told ▸ emits⟩
  · rename_i untold
    rw [if_neg untold] at emits
    exact ⟨[_], routeEventOrLog_router _ router, emits⟩

/-- Every callback tells what it should. -/
theorem Emitter.on_told (session : Emitter) (callback : Callback) :
    session.Told callback (session.on callback) := by
  have resets (reason : String) (fails : callback.Fails) (other : callback ≠ .ice .failed) :
      session.Told callback
        { session.emitPeerDisconnected reason with peerConnectedEmitted := false } :=
    ⟨fun events router => ⟨[_], routeEventOrLog_router _ router, .resets reason fails other⟩⟩
  have ignores (connects : ¬ callback.Connects) (fails : ¬ callback.Fails) :
      session.Told callback session :=
    ⟨fun events router => ⟨[], by rw [List.append_nil, router], .ignores connects fails⟩⟩
  cases callback with
  | state reported =>
      cases reported with
      | connected => exact session.emitPeerConnected_told rfl
      | failed => exact resets "failed" (.inl rfl) nofun
      | closed => exact resets "closed" (.inr rfl) nofun
      | new => exact ignores nofun (not_or.mpr ⟨nofun, nofun⟩)
      | connecting => exact ignores nofun (not_or.mpr ⟨nofun, nofun⟩)
      | disconnected => exact ignores nofun (not_or.mpr ⟨nofun, nofun⟩)
  | ice reported =>
      cases reported with
      | connected => exact session.emitPeerConnected_told (.inl rfl)
      | completed => exact session.emitPeerConnected_told (.inr rfl)
      | failed => exact ⟨fun events router => ⟨[_], routeEventOrLog_router _ router, .iceFails⟩⟩
      | new => exact ignores (not_or.mpr ⟨nofun, nofun⟩) nofun
      | checking => exact ignores (not_or.mpr ⟨nofun, nofun⟩) nofun
      | disconnected => exact ignores (not_or.mpr ⟨nofun, nofun⟩) nofun
      | closed => exact ignores (not_or.mpr ⟨nofun, nofun⟩) nofun

/-- One more callback is handled after the others. -/
theorem after_concat : after roomId participantId (callbacks ++ [callback]) =
    (after roomId participantId callbacks).on callback := by
  rw [after, List.foldl_append]
  rfl

/-- A session that is open has a router after every callback. -/
theorem after_router (callbacks : List Callback) :
    ∃ events, (after roomId participantId callbacks).eventRouter = some events := by
  induction callbacks using List.reverseRecOn with
  | nil => exact ⟨[], rfl⟩
  | append_singleton callbacks callback ih =>
      obtain ⟨events, router⟩ := ih
      obtain ⟨news, given, -⟩ := ((after roomId participantId callbacks).on_told callback).router
        events router
      exact ⟨_, after_concat ▸ given⟩

/-- What one callback more adds to the events. -/
theorem emitted_concat (callbacks : List Callback) (callback : Callback) : ∃ news,
    emitted roomId participantId (callbacks ++ [callback]) =
        emitted roomId participantId callbacks ++ news ∧
      Emits (after roomId participantId callbacks).peerConnectedEmitted callback
        (after roomId participantId (callbacks ++ [callback])).peerConnectedEmitted news := by
  obtain ⟨events, router⟩ := @after_router roomId participantId callbacks
  obtain ⟨news, given, emits⟩ := ((after roomId participantId callbacks).on_told callback).router
    events router
  rw [← after_concat] at given emits
  refine ⟨news.map Event.detail, ?_, emits⟩
  rw [emitted, emitted, given, router]
  exact List.map_append

/-- The connection has been closed or has failed, other than by its ICE transport alone. -/
def Callback.Resets (callback : Callback) : Prop := callback.Fails ∧ callback ≠ .ice .failed

/-- The flag tells that the peer has connected, and that the connection itself has not been
lost since. -/
theorem flag_iff (callbacks : List Callback) :
    (after roomId participantId callbacks).peerConnectedEmitted = true ↔
      Open Callback.Connects Callback.Resets callbacks := by
  induction callbacks using List.reverseRecOn with
  | nil => exact iff_of_false Bool.false_ne_true not_open_nil
  | append_singleton callbacks callback ih =>
      obtain ⟨news, -, emits⟩ := @emitted_concat roomId participantId callbacks callback
      rw [open_concat, ← ih]
      generalize (after roomId participantId (callbacks ++ [callback])).peerConnectedEmitted =
        later at emits
      cases emits with
      | connects connects => exact iff_of_true rfl (.inl connects)
      | resets reason fails other =>
          refine iff_of_false Bool.false_ne_true ?_
          rintro (connects | ⟨-, stays⟩)
          · exact fails.not_connects connects
          · exact stays ⟨fails, other⟩
      | iceFails =>
          have fails : Callback.Fails (.ice .failed) := rfl
          refine ⟨fun told => .inr ⟨told, fun resets => resets.2 rfl⟩, fun opened => ?_⟩
          exact (opened.resolve_left fails.not_connects).1
      | ignores connects fails =>
          refine ⟨fun told => .inr ⟨told, fun resets => fails resets.1⟩, fun opened => ?_⟩
          exact (opened.resolve_left connects).1

/-- A callback that comes with everything before it, in a longer sequence. -/
theorem forall_split_concat {fits : List Callback → Callback → Prop} :
    (∀ earlier now later, callbacks ++ [callback] = earlier ++ now :: later → fits earlier now) ↔
      (∀ earlier now later, callbacks = earlier ++ now :: later → fits earlier now) ∧
        fits callbacks callback := by
  constructor
  · intro all
    refine ⟨?_, all callbacks callback [] rfl⟩
    rintro earlier now later rfl
    refine all earlier now (later ++ [callback]) ?_
    rw [List.append_assoc, List.cons_append]
  · rintro ⟨all, last⟩ earlier now later whole
    rcases List.eq_nil_or_concat' later with rfl | ⟨later, final, rfl⟩
    · obtain ⟨rfl, same⟩ := List.append_inj' whole rfl
      cases same
      exact last
    · have grouped : callbacks ++ [callback] = (earlier ++ now :: later) ++ [final] := by
        rw [whole, List.append_assoc, List.cons_append]
      obtain ⟨rfl, -⟩ := List.append_inj' grouped rfl
      exact all earlier now later rfl

/-- When the events are still well paired after one callback more. -/
theorem paired_concat : Paired roomId participantId (callbacks ++ [callback]) ↔
    (Guarded EventDetail.Disconnected EventDetail.Connected EventDetail.Disconnected
        (emitted roomId participantId (callbacks ++ [callback])) ∧
      ∀ earlier now later, callbacks = earlier ++ now :: later → now.Connects →
        ¬ Open EventDetail.Disconnected EventDetail.Connected
          (emitted roomId participantId (earlier ++ [now]))) ∧
      (callback.Connects → ¬ Open EventDetail.Disconnected EventDetail.Connected
        (emitted roomId participantId (callbacks ++ [callback]))) := by
  rw [and_assoc, ← @forall_split_concat callbacks callback fun earlier now => now.Connects →
    ¬ Open EventDetail.Disconnected EventDetail.Connected
      (emitted roomId participantId (earlier ++ [now]))]
  exact ⟨fun paired => ⟨paired.between, paired.again⟩, fun paired => ⟨paired.1, paired.2⟩⟩

/-- A connection that comes now may follow every ICE failure so far. -/
def Unspent (callbacks : List Callback) : Prop :=
  ∀ earlier later, callbacks = earlier ++ .ice .failed :: later →
    ¬ ∃ callback ∈ earlier, callback.Connects

/-- When the peer can still recover after one callback more. -/
theorem recoverable_concat : Recoverable (callbacks ++ [callback]) ↔
    Recoverable callbacks ∧ (callback.Fails → ¬ Open Callback.Fails Callback.Connects callbacks) ∧
      (callback.Connects → Unspent callbacks) := by
  constructor
  · rintro ⟨between, final⟩
    obtain ⟨guarded, last⟩ := guarded_concat.mp between
    refine ⟨⟨guarded, ?_⟩, last, ?_⟩
    · rintro earlier later rfl connected now member
      refine final earlier (later ++ [callback]) ?_ connected now (List.mem_append_left _ member)
      rw [List.append_assoc, List.cons_append]
    · rintro connects earlier later rfl connected
      refine final earlier (later ++ [callback]) ?_ connected callback ?_ connects
      · rw [List.append_assoc, List.cons_append]
      · exact List.mem_append_right _ List.mem_cons_self
  · rintro ⟨⟨between, final⟩, last, unspent⟩
    refine ⟨guarded_concat.mpr ⟨between, last⟩, fun earlier later whole connected => ?_⟩
    rcases List.eq_nil_or_concat' later with rfl | ⟨later, latest, rfl⟩
    · exact nofun
    · have grouped : callbacks ++ [callback] = (earlier ++ .ice .failed :: later) ++ [latest] := by
        rw [whole, List.append_assoc, List.cons_append]
      obtain ⟨rfl, same⟩ := List.append_inj' grouped rfl
      cases same
      intro now member
      rcases List.mem_append.mp member with before | only
      · exact final earlier later rfl connected now before
      · rw [List.mem_singleton.mp only]
        exact fun connects => unspent connects earlier later rfl connected

/-! ## The flag and the failures -/

/-- While the flag is not set, no ICE failure of a peer that had been connected is left. -/
theorem Recoverable.unspent (recoverable : Recoverable callbacks)
    (unset : ¬ Open Callback.Connects Callback.Resets callbacks) : Unspent callbacks := by
  rintro earlier later rfl ⟨connected, member, connects⟩
  obtain ⟨front, last, back, rfl, connects, none⟩ := open_of_mem member connects
  have lost : ∃ callback ∈ back ++ .ice .failed :: later, callback.Resets := by
    by_contra kept
    refine unset ⟨front, last, back ++ .ice .failed :: later, ?_, connects, ?_⟩
    · rw [List.append_assoc, List.cons_append]
    · exact fun callback member resets => kept ⟨callback, member, resets⟩
  have iceFails : Callback.Fails (.ice .failed) := rfl
  obtain ⟨callback, member, fails, other⟩ := lost
  rcases List.mem_append.mp member with before | behind
  · -- two losses, and the last connection comes before both
    obtain ⟨start, rest, rfl⟩ := List.append_of_mem before
    obtain ⟨again, among, connects⟩ := recoverable.between (front ++ last :: start) callback rest
      (.ice .failed) later (by simp only [List.append_assoc, List.cons_append]) fails iceFails
    exact none again (List.mem_append_right _ (List.mem_cons_of_mem _ among)) connects
  · rcases List.mem_cons.mp behind with rfl | behind
    · exact other rfl
    · -- the connection between the two losses comes after the ICE failure
      obtain ⟨between, rest, rfl⟩ := List.append_of_mem behind
      obtain ⟨again, among, reconnects⟩ := recoverable.between (front ++ last :: back)
        (.ice .failed) between callback rest rfl iceFails fails
      exact recoverable.final (front ++ last :: back) (between ++ callback :: rest) rfl
        ⟨last, List.mem_append_right _ List.mem_cons_self, connects⟩ again
        (List.mem_append_left _ among) reconnects

/-- While the flag is set, the peer is lost only by an ICE failure after it was connected. -/
theorem Recoverable.unspent_iff (recoverable : Recoverable callbacks)
    (set : Open Callback.Connects Callback.Resets callbacks) :
    Unspent callbacks ↔ ¬ Open Callback.Fails Callback.Connects callbacks := by
  constructor
  · rintro unspent ⟨front, lost, back, rfl, fails, none⟩
    obtain ⟨start, connected, rest, whole, connects, kept⟩ := set
    rcases List.append_eq_append_iff.mp whole with ⟨middle, rfl, tail⟩ | ⟨middle, rfl, tail⟩
    · -- the connection would come after the loss
      cases middle with
      | nil =>
          obtain ⟨rfl, -⟩ := List.cons_eq_cons.mp tail
          exact fails.not_connects connects
      | cons first middle =>
          obtain ⟨rfl, rfl⟩ := List.cons_eq_cons.mp tail
          exact none connected (List.mem_append_right _ List.mem_cons_self) connects
    · cases middle with
      | nil =>
          obtain ⟨rfl, -⟩ := List.cons_eq_cons.mp tail
          exact fails.not_connects connects
      | cons first middle =>
          obtain ⟨rfl, rfl⟩ := List.cons_eq_cons.mp tail
          have unreset := kept lost (List.mem_append_right _ List.mem_cons_self)
          have same : lost = .ice .failed := by
            by_contra other
            exact unreset ⟨fails, other⟩
          subst same
          exact unspent _ back rfl ⟨connected, List.mem_append_right _ List.mem_cons_self, connects⟩
  · rintro unlost earlier later rfl connected
    exact unlost ⟨earlier, .ice .failed, later, rfl, rfl, recoverable.final _ _ rfl connected⟩

/-! ## A whole run -/

/-- The events are well paired exactly if the peer can recover, and then they end with a
disconnection exactly if the peer has been lost and not connected again. -/
structure Tracks (roomId : RoomId) (participantId : PeerId) (callbacks : List Callback) :
    Prop where
  paired : Paired roomId participantId callbacks ↔ Recoverable callbacks
  ends : Recoverable callbacks →
    (Open EventDetail.Disconnected EventDetail.Connected (emitted roomId participantId callbacks) ↔
      Open Callback.Fails Callback.Connects callbacks)

/-- The two parts of the pairing. -/
theorem Paired.iff : Paired roomId participantId callbacks ↔
    Guarded EventDetail.Disconnected EventDetail.Connected EventDetail.Disconnected
        (emitted roomId participantId callbacks) ∧
      ∀ earlier now later, callbacks = earlier ++ now :: later → now.Connects →
        ¬ Open EventDetail.Disconnected EventDetail.Connected
          (emitted roomId participantId (earlier ++ [now])) :=
  ⟨fun paired => ⟨paired.between, paired.again⟩, fun paired => ⟨paired.1, paired.2⟩⟩

/-- A failure that is told agrees with the events. -/
theorem Tracks.fails (tracks : Tracks roomId participantId callbacks) (fails : callback.Fails)
    {reason : String} (told : emitted roomId participantId (callbacks ++ [callback]) =
      emitted roomId participantId callbacks ++ [.peerDisconnected reason]) :
    Tracks roomId participantId (callbacks ++ [callback]) := by
  have unconnected := fails.not_connects
  constructor
  · rw [paired_concat, recoverable_concat, told, guarded_concat, ← tracks.paired]
    constructor
    · rintro ⟨⟨⟨guarded, unopened⟩, again⟩, -⟩
      have paired : Paired roomId participantId callbacks := ⟨guarded, again⟩
      have closed := mt (tracks.ends (tracks.paired.mp paired)).mpr (unopened trivial)
      exact ⟨paired, fun _ => closed, fun connects => absurd connects unconnected⟩
    · rintro ⟨paired, unlost, -⟩
      have closed := mt (tracks.ends (tracks.paired.mp paired)).mp (unlost fails)
      exact ⟨⟨⟨paired.between, fun _ => closed⟩, paired.again⟩,
        fun connects => absurd connects unconnected⟩
  · intro _
    rw [told, open_concat, open_concat]
    exact iff_of_true (.inl trivial) (.inl fails)

/-- So does a callback that tells nothing. -/
theorem Tracks.ignores (tracks : Tracks roomId participantId callbacks)
    (unconnected : ¬ callback.Connects) (unlost : ¬ callback.Fails)
    (told : emitted roomId participantId (callbacks ++ [callback]) =
      emitted roomId participantId callbacks) :
    Tracks roomId participantId (callbacks ++ [callback]) := by
  constructor
  · rw [paired_concat, recoverable_concat, told, ← Paired.iff, tracks.paired]
    exact and_congr_right fun _ => iff_of_true (fun connects => absurd connects unconnected)
      ⟨fun fails => absurd fails unlost, fun connects => absurd connects unconnected⟩
  · intro recoverable
    rw [told, open_concat, tracks.ends (recoverable_concat.mp recoverable).1]
    exact ⟨fun opened => .inr ⟨opened, unconnected⟩, fun opened => (opened.resolve_left unlost).1⟩

/-- A connection is told unless one has been told since the connection itself was lost. -/
theorem Tracks.connects (tracks : Tracks roomId participantId callbacks)
    (connects : callback.Connects)
    (told : emitted roomId participantId (callbacks ++ [callback]) =
      emitted roomId participantId callbacks ++
        if (after roomId participantId callbacks).peerConnectedEmitted then []
        else [.peerConnected "udp"]) :
    Tracks roomId participantId (callbacks ++ [callback]) := by
  have unlost : ¬ callback.Fails := fun fails => fails.not_connects connects
  have reopened : ¬ Open Callback.Fails Callback.Connects (callbacks ++ [callback]) := by
    rw [open_concat]
    exact not_or.mpr ⟨unlost, fun opened => opened.2 connects⟩
  by_cases set : (after roomId participantId callbacks).peerConnectedEmitted = true
  · rw [if_pos set, List.append_nil] at told
    have spent (recoverable : Recoverable callbacks) :
        Unspent callbacks ↔ ¬ Open EventDetail.Disconnected EventDetail.Connected
          (emitted roomId participantId callbacks) := by
      rw [tracks.ends recoverable]
      exact recoverable.unspent_iff ((flag_iff callbacks).mp set)
    constructor
    · rw [paired_concat, recoverable_concat, told, ← Paired.iff, tracks.paired]
      refine and_congr_right fun recoverable => ?_
      constructor
      · exact fun closed => ⟨fun fails => absurd fails unlost,
          fun connects => (spent recoverable).mpr (closed connects)⟩
      · exact fun last connects => (spent recoverable).mp (last.2 connects)
    · intro recoverable
      obtain ⟨recoverable, -, unspent⟩ := recoverable_concat.mp recoverable
      rw [told]
      exact iff_of_false ((spent recoverable).mp (unspent connects)) reopened
  · rw [if_neg set] at told
    have closed : ¬ Open EventDetail.Disconnected EventDetail.Connected
        (emitted roomId participantId (callbacks ++ [callback])) := by
      rw [told, open_concat]
      exact not_or.mpr ⟨id, fun opened => opened.2 trivial⟩
    constructor
    · rw [paired_concat, recoverable_concat, told, guarded_concat, ← told, ← tracks.paired]
      constructor
      · rintro ⟨⟨⟨guarded, -⟩, again⟩, -⟩
        have paired : Paired roomId participantId callbacks := ⟨guarded, again⟩
        have recoverable := tracks.paired.mp paired
        exact ⟨paired, fun fails => absurd fails unlost, fun _ =>
          recoverable.unspent (mt (flag_iff callbacks).mpr set)⟩
      · rintro ⟨paired, -⟩
        exact ⟨⟨⟨paired.between, False.elim⟩, paired.again⟩, fun _ => closed⟩
    · exact fun _ => iff_of_false closed reopened

/-- Pairing and recovery agree after any callbacks. -/
theorem tracks (callbacks : List Callback) : Tracks roomId participantId callbacks := by
  induction callbacks using List.reverseRecOn with
  | nil =>
      have none (earlier : List Callback) (now : Callback) (later : List Callback) :
          [] ≠ earlier ++ now :: later :=
        (List.append_ne_nil_of_right_ne_nil _ (List.cons_ne_nil _ _)).symm
      refine ⟨iff_of_true ⟨guarded_nil, ?_⟩ ⟨guarded_nil, ?_⟩, fun _ =>
        iff_of_false not_open_nil not_open_nil⟩
      · exact fun _ _ _ whole => absurd whole (none _ _ _)
      · exact fun _ _ whole => absurd whole (none _ _ _)
  | append_singleton callbacks callback ih =>
      obtain ⟨news, told, emits⟩ := @emitted_concat roomId participantId callbacks callback
      generalize (after roomId participantId (callbacks ++ [callback])).peerConnectedEmitted =
        later at emits
      cases emits with
      | connects connects => exact ih.connects connects told
      | resets reason fails _ => exact ih.fails fails told
      | iceFails => exact ih.fails rfl told
      | ignores unconnected unlost =>
          rw [List.append_nil] at told
          exact ih.ignores unconnected unlost told

end Step

/-- **The events are well paired** exactly if between two losses of the peer it is
connected, and not connected again after an ICE failure that came when it was. -/
theorem paired_iff (callbacks : List Callback) :
    Paired roomId participantId callbacks ↔ Recoverable callbacks :=
  (tracks callbacks).paired

/-- A peer whose ICE transport fails and connects again is not told to be connected. -/
theorem not_paired_ice : ¬ Paired "room" "alice"
    [.state .connected, .ice .failed, .ice .connected] := by
  intro paired
  refine paired.again [.state .connected, .ice .failed] (.ice .connected) [] rfl (.inl rfl) ?_
  exact ⟨[.peerConnected "udp"], .peerDisconnected "ice_failed", [], by decide, trivial, nofun⟩

end PeerSession

end Callifornia.Sfu
