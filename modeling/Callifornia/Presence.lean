import Callifornia.Client.ActiveRoom
import Callifornia.Names
import Callifornia.Threads

/-! # Who is shown in a room and who is there

A participant that joins a room reads its members in Redis and shows them to its client. Others
that come or go later are announced to it once the node has registered it, which is a call to
the SFU and a few writes later. Whoever comes or goes in between may be missed.
-/

namespace Callifornia.Presence

open Client Concurrency Concurrency.Program Concurrency.System FiniteMap Store Signaling

/-! ## Coming and going -/

/-- How far a participant is with joining or leaving the room. -/
inductive Stage
  /-- It does neither. -/
  | idle
  /-- It is a member. -/
  | added
  /-- It has read the members. -/
  | waiting (members : List Nickname)
  /-- It shows them to its client. -/
  | greeted (members : List Nickname)
  /-- It is registered, or no longer, and nobody has been told. -/
  | changed (joined : Bool)
  /-- These connections have yet to be told. -/
  | telling (joined : Bool) (remaining : List ConnectionId)
  /-- Everybody has been told. -/
  | done
  deriving DecidableEq

/-- Tell these connections. -/
def Stage.tell (joined : Bool) : List ConnectionId → Stage
  | [] => .done
  | connection :: remaining => .telling joined (connection :: remaining)

structure Phase where
  connection : ConnectionId
  stage : Stage
  deriving DecidableEq

/-- How far a step brings a participant. -/
def Phase.advance : Phase → (op : Op) → op.Reply → Phase
  | ⟨connection, .idle⟩, .redis (.sadd ..), _ => ⟨connection, .added⟩
  | ⟨connection, .added⟩, .redis (.smembers _), .ok members => ⟨connection, .waiting members⟩
  | ⟨connection, .waiting members⟩, .sendMessage .., _ => ⟨connection, .greeted members⟩
  | ⟨connection, .greeted _⟩, .peers _ (.register ..), _ => ⟨connection, .changed true⟩
  | ⟨connection, .idle⟩, .peers _ (.unregister ..), _ => ⟨connection, .changed false⟩
  | ⟨connection, .changed joined⟩, .peers _ (.targets ..), targets =>
      ⟨connection, .tell joined (targets.map Prod.snd)⟩
  | ⟨connection, .telling joined (_ :: remaining)⟩, .trySend .., _ =>
      ⟨connection, .tell joined remaining⟩
  | phase, _, _ => phase

/-- A handler whose result is told to nobody. -/
def ignoring (handler : WsCall Unit) : Call Unit := do
  let _ ← handler.run

/-- The participant of a connection joins the room or leaves it, or its connection ends. -/
inductive Handles (named : ConnectionId → Nickname) (room : RoomId) (state : State)
    (connection : ConnectionId) : Call Unit → Prop
  | join (sessionId : SessionId) : Handles named room state connection
      (ignoring (handleJoinLocked state connection sessionId room))
  | leave (sessionId : SessionId) (participants : Option (List String)) (reason : String) :
      Handles named room state connection (ignoring
        (leaveRoomOf state connection sessionId room (named connection) participants reason))
  | cleanup : Handles named room state connection (cleanupConnection state connection)

/-- No SFU and no socket fails, and no queue is full: a message is refused only by the channel of
a connection that has ended. -/
def Succeeds (world : World) : (op : Op) → op.Reply → Prop
  | .createPeer .., reply => reply = .ok ⟨true, none⟩
  | .sendMessage .., sent => sent = true
  | .trySend receiver _, sent => sent = true ∨ (world.connections receiver).receiving = false
  | _, _ => True

/-- What a client shows once its queue is drained. -/
def clientRoom (world : World) (connection : ConnectionId) : Option ActiveRoom :=
  activeRoom ((world.connections connection).received ++ (world.connections connection).queue)

/-- What happens besides: queues are drained and time passes, and whatever else there is concerns
neither the registered participants of the room nor what clients show. -/
structure Besides (node : NodeId) (room : RoomId) (before after : World) : Prop where
  registry : ∀ nickname, (after.nodes node).peers.lookup (room, nickname) =
    (before.nodes node).peers.lookup (room, nickname)
  clients : ∀ connection, clientRoom after connection = clientRoom before connection

/-- The participants of a room on a node. Each connection has its nickname. -/
def threads (named : ConnectionId → Nickname) (node : NodeId) (room : RoomId) : Threads where
  Phase := Phase
  Ghost := Unit
  Result := Unit
  advance := Phase.advance
  start before _ phase program after := after = before ∧ phase.stage = .idle ∧
    ∃ state : State, state.node = node ∧ Handles named room state phase.connection program
  assumed := Succeeds
  environment before _ after := Besides node room before.1 after.1

section Participants

variable {named : ConnectionId → Nickname} {node : NodeId} {room : RoomId}

/-! ## Runs in which nobody is missed -/

/-- The participant joins or leaves, and not everybody has been told. -/
def Stage.active : Stage → Bool
  | .idle | .done => false
  | _ => true

/-- The participants that join or leave. -/
def busy (named : ConnectionId → Nickname) (phases : Multiset Phase) : Multiset Nickname :=
  (phases.filter (·.stage.active)).map fun phase => named phase.connection

/-- A participant joins and leaves under its nickname, one after the other. -/
def Proper (named : ConnectionId → Nickname) (room : RoomId) :
    Phase → Op → Multiset Phase → Prop
  | ⟨connection, .idle⟩, .redis (.sadd _ nickname), others =>
      nickname = named connection ∧ nickname ∉ busy named others
  | ⟨connection, .idle⟩, .peers _ (.unregister roomId nickname), others =>
      roomId = room ∧ nickname = named connection ∧ nickname ∉ busy named others
  | _, _, _ => True

/-- The members that have been read by one that is not registered yet. -/
def Stage.read : Stage → Option (List Nickname)
  | .waiting members | .greeted members => some members
  | _ => none

/-- The participant joins or leaves, and this has yet to be announced. -/
def Stage.Unannounced : Stage → Prop
  | .added | .waiting _ | .greeted _ | .changed _ => True
  | _ => False

/-- Somebody with this nickname joins or leaves, and this has yet to be announced. -/
def Unannounced (named : ConnectionId → Nickname) (phases : Multiset Phase)
    (nickname : Nickname) : Prop :=
  ∃ phase ∈ phases, named phase.connection = nickname ∧ phase.stage.Unannounced

/-- Members are read while they are the registered participants, but for those that have yet to
be announced. A participant is announced when everybody who has read the members, and is not
registered, has read it as it is announced now. A client is shown the members when no message it
has yet to receive changes them. No registered participant refuses an announcement, and one that
is gone, and is detached once more since it refused one, stays away meanwhile. -/
def Aware (named : ConnectionId → Nickname) (node : NodeId) (room : RoomId) (world : World) :
    Phase → Op → Multiset Phase → Prop
  -- `join_room` reads the members of which the client is told.
  | ⟨connection, .added⟩, .redis (.smembers _), others =>
      ∀ nickname ∈ world.redis.roomMembers room ∪
          PeerRegistry.nicknames (world.nodes node).peers room,
        nickname ≠ named connection → Unannounced named others nickname ∨
          (nickname ∈ world.redis.roomMembers room ↔
            nickname ∈ PeerRegistry.nicknames (world.nodes node).peers room)
  -- `broadcast_to_room` collects the registered participants.
  | ⟨connection, .changed joined⟩, .peers _ (.targets ..), others =>
      ∀ phase ∈ others, ∀ members ∈ phase.stage.read,
        (named connection ∈ members ↔ joined = true)
  -- The `joined` message is written to the socket past the queue.
  | ⟨_, .waiting _⟩, .sendMessage connection message, _ =>
      shown (activeRoom ((world.connections connection).received ++
          message :: (world.connections connection).queue)) =
        shown (activeRoom ((world.connections connection).received ++ [message]))
  | ⟨_, .telling ..⟩, .trySend receiver _, _ =>
      (world.connections receiver).receiving = true ∨
        ∀ nickname ∈ PeerRegistry.nicknames (world.nodes node).peers room,
          ∀ entry ∈ (world.nodes node).peers.lookup (room, nickname), entry.sender ≠ receiver
  -- `detach_stale_peers` announces and detaches whoever refused an announcement.
  | ⟨_, .done⟩, .trySend _ (.participantLeft nickname), others =>
      nickname ∉ PeerRegistry.nicknames (world.nodes node).peers room ∧
        nickname ∉ busy named others
  | ⟨_, .done⟩, .peers _ (.unregister roomId nickname), _ =>
      (roomId, nickname) ∉ (world.nodes node).peers
  | _, _, _ => True

def proper (named : ConnectionId → Nickname) (node : NodeId) (room : RoomId) :
    (threads named node room).system.Guard :=
  fun _ phase op others => Proper named room phase op others

def guard (named : ConnectionId → Nickname) (node : NodeId) (room : RoomId) :
    (threads named node room).system.Guard :=
  fun state phase op others => Proper named room phase op others ∧
    Aware named node room state.1 phase op others

/-! ## What is registered and what is shown -/

/-- The connections of the registered participants, and whom the clients show. -/
structure Picture where
  holder : Nickname → Option ConnectionId
  shown : ConnectionId → Finset Nickname

def Picture.Registered (picture : Picture) (nickname : Nickname) : Prop :=
  (picture.holder nickname).isSome

def picture (node : NodeId) (room : RoomId) (world : World) : Picture where
  holder nickname := ((world.nodes node).peers.lookup (room, nickname)).map PeerEntry.sender
  shown connection := shown (clientRoom world connection)

/-- The connection has yet to be told of the participant. -/
def Stage.Owes (connection : ConnectionId) : Stage → Prop
  | .idle | .done => False
  | .telling _ remaining => connection ∈ remaining
  | _ => True

/-- The connection has yet to be told of somebody with this nickname. -/
def Owed (named : ConnectionId → Nickname) (phases : Multiset Phase) (nickname : Nickname)
    (connection : ConnectionId) : Prop :=
  ∃ phase ∈ phases, named phase.connection = nickname ∧ phase.stage.Owes connection

/-- Whether the participant has joined or has left. -/
def Stage.outcome : Stage → Option Bool
  | .changed joined | .telling joined _ => some joined
  | _ => none

def Stage.remaining : Stage → List ConnectionId
  | .telling _ remaining => remaining
  | _ => []

/-- What a participant that joins or leaves relies on: the members it has read are registered or
have yet to be announced, its client shows them, and the registry is as it tells others. -/
structure Fits (named : ConnectionId → Nickname) (picture : Picture) (phases : Multiset Phase)
    (phase : Phase) : Prop where
  read : ∀ members ∈ phase.stage.read, ∀ nickname, nickname ≠ named phase.connection →
    ¬ Unannounced named phases nickname → (nickname ∈ members ↔ picture.Registered nickname)
  greeted : ∀ members, phase.stage = .greeted members → ∀ nickname,
    nickname ∈ picture.shown phase.connection ↔
      nickname ∈ members ∨ nickname = named phase.connection
  told : ∀ joined ∈ phase.stage.outcome,
    (picture.Registered (named phase.connection) ↔ joined = true)
  others : ∀ connection ∈ phase.stage.remaining, named connection ≠ named phase.connection

/-- Every registered participant shows exactly the registered ones, but for those it has yet to
be told of. -/
structure Agrees (named : ConnectionId → Nickname) (picture : Picture) (phases : Multiset Phase) :
    Prop where
  alone : (busy named phases).Nodup
  /-- Its connection is the one of its nickname, so that it is told of all others. -/
  own : ∀ nickname connection, picture.holder nickname = some connection →
    named connection = nickname
  self : ∀ nickname connection, picture.holder nickname = some connection →
    nickname ∈ picture.shown connection
  known : ∀ nickname connection, picture.holder nickname = some connection →
    ∀ other, other ≠ nickname → ¬ Owed named phases other connection →
      (other ∈ picture.shown connection ↔ picture.Registered other)
  fits : ∀ phase ∈ phases, Fits named picture phases phase

def outline (named : ConnectionId → Nickname) (node : NodeId) (room : RoomId) :
    Outline (threads named node room).system where
  guard := guard named node room
  inv state phases := Agrees named (picture node room state.1) phases
  asserts _ _ _ := True

/-! ## Who joins or leaves -/

section Phases

variable {phase : Phase} {phases others : Multiset Phase} {nickname : Nickname}
  {connection : ConnectionId}

/-- One that joins or leaves is busy under its nickname. -/
theorem mem_busy (member : phase ∈ phases) (active : phase.stage.active = true) :
    named phase.connection ∈ busy named phases :=
  Multiset.mem_map_of_mem _ (Multiset.mem_filter.mpr ⟨member, active⟩)

/-- Only an active participant is busy. -/
theorem busy_cons : busy named (phase ::ₘ others) =
    if phase.stage.active then named phase.connection ::ₘ busy named others
    else busy named others := by
  by_cases active : phase.stage.active = true
  · simp [busy, active]
  · simp [busy, active]

/-- A participant that starts under a nickname that nobody is busy under. -/
theorem nodup_busy_cons (alone : (busy named others).Nodup)
    (apart : named phase.connection ∉ busy named others) :
    (busy named (phase ::ₘ others)).Nodup := by
  rw [busy_cons]
  split
  · exact Multiset.nodup_cons.mpr ⟨apart, alone⟩
  · exact alone

/-- One participant fewer is busy. -/
theorem nodup_busy_of_cons (alone : (busy named (phase ::ₘ others)).Nodup) :
    (busy named others).Nodup := by
  rw [busy_cons] at alone
  split at alone
  · exact (Multiset.nodup_cons.mp alone).2
  · exact alone

/-- News is unannounced if it is that of one of the participants. -/
theorem unannounced_cons : Unannounced named (phase ::ₘ others) nickname ↔
    named phase.connection = nickname ∧ phase.stage.Unannounced ∨
      Unannounced named others nickname := by
  simp only [Unannounced, Multiset.mem_cons, exists_eq_or_imp]

/-- News is owed if one of the participants owes it. -/
theorem owed_cons : Owed named (phase ::ₘ others) nickname connection ↔
    named phase.connection = nickname ∧ phase.stage.Owes connection ∨
      Owed named others nickname connection := by
  simp only [Owed, Multiset.mem_cons, exists_eq_or_imp]

/-- Who has yet to announce something joins or leaves. -/
theorem Stage.active_of_unannounced {stage : Stage} (unannounced : stage.Unannounced) :
    stage.active = true := by
  cases stage with
  | idle | telling | done => exact unannounced.elim
  | added | waiting | greeted | changed => rfl

/-- Who has yet to tell somebody joins or leaves. -/
theorem Stage.active_of_owes {stage : Stage} (owes : stage.Owes connection) :
    stage.active = true := by
  cases stage with
  | idle | done => exact owes.elim
  | added | waiting | greeted | changed | telling => rfl

/-- Who has read the members joins. -/
theorem Stage.active_of_read {stage : Stage} {members : List Nickname}
    (read : members ∈ stage.read) : stage.active = true := by
  cases stage with
  | waiting | greeted => rfl
  | idle | added | changed | telling | done => exact absurd read (Option.not_mem_none _)

/-- Who has joined or left has yet to tell everybody. -/
theorem Stage.active_of_outcome {stage : Stage} {joined : Bool}
    (outcome : joined ∈ stage.outcome) : stage.active = true := by
  cases stage with
  | changed | telling => rfl
  | idle | added | waiting | greeted | done => exact absurd outcome (Option.not_mem_none _)

/-- Unannounced news is that of a busy nickname. -/
theorem mem_busy_of_unannounced (unannounced : Unannounced named phases nickname) :
    nickname ∈ busy named phases := by
  obtain ⟨phase, member, rfl, yet⟩ := unannounced
  exact mem_busy member (Stage.active_of_unannounced yet)

/-- Owed news is that of a busy nickname. -/
theorem mem_busy_of_owed (owed : Owed named phases nickname connection) :
    nickname ∈ busy named phases := by
  obtain ⟨phase, member, rfl, owes⟩ := owed
  exact mem_busy member (Stage.active_of_owes owes)

/-- What another has yet to announce does not depend on how far this one is. -/
theorem unannounced_of_ne {stage next : Stage} (apart : nickname ≠ named connection)
    (unannounced : Unannounced named (⟨connection, stage⟩ ::ₘ others) nickname) :
    Unannounced named (⟨connection, next⟩ ::ₘ others) nickname := by
  rw [unannounced_cons] at unannounced ⊢
  exact unannounced.elim (fun own => absurd own.1.symm apart) .inr

/-- What another owes does not depend on how far this one is. -/
theorem owed_of_ne {stage next : Stage} {holder : ConnectionId}
    (apart : nickname ≠ named connection)
    (owed : Owed named (⟨connection, stage⟩ ::ₘ others) nickname holder) :
    Owed named (⟨connection, next⟩ ::ₘ others) nickname holder := by
  rw [owed_cons] at owed ⊢
  exact owed.elim (fun own => absurd own.1.symm apart) .inr

/-- One that joins or leaves does not have a nickname that nobody else is busy under. -/
theorem ne_of_active (apart : named connection ∉ busy named others) (member : phase ∈ others)
    (active : phase.stage.active = true) : named phase.connection ≠ named connection :=
  fun same => apart (same ▸ mem_busy member active)

/-- A participant that owes its news to a connection is not the one the connection has news of. -/
theorem ne_of_not_owed {stage : Stage} {holder : ConnectionId}
    (told : ¬ Owed named (⟨connection, stage⟩ ::ₘ others) nickname holder)
    (owes : stage.Owes holder) : nickname ≠ named connection := by
  rintro rfl
  exact told (owed_cons.mpr (.inl ⟨rfl, owes⟩))

/-- Everybody is owed what has yet to be announced. -/
theorem owed_of_unannounced (unannounced : Unannounced named phases nickname) :
    Owed named phases nickname connection := by
  obtain ⟨phase, member, same, yet⟩ := unannounced
  refine ⟨phase, member, same, ?_⟩
  cases stage : phase.stage with
  | idle | telling | done =>
      rw [stage] at yet
      exact yet.elim
  | added | waiting | greeted | changed => trivial

/-- A connection is owed news until it has been told. -/
@[simp] theorem Stage.owes_tell {joined : Bool} {remaining : List ConnectionId} :
    (Stage.tell joined remaining).Owes connection ↔ connection ∈ remaining := by
  cases remaining with
  | nil => exact iff_of_false id List.not_mem_nil
  | cons => exact Iff.rfl

/-- Who neither joins nor leaves relies on nothing. -/
theorem fits_of_inactive {picture : Picture} (inactive : phase.stage.active = false) :
    Fits named picture phases phase where
  read _ read := absurd (Stage.active_of_read read) (Bool.eq_false_iff.mp inactive)
  greeted := by
    intro members greeted
    rw [greeted] at inactive
    cases inactive
  told _ told := absurd (Stage.active_of_outcome told) (Bool.eq_false_iff.mp inactive)
  others := by
    intro receiver remaining
    cases stage : phase.stage with
    | telling =>
        rw [stage] at inactive
        cases inactive
    | idle | added | waiting | greeted | changed | done =>
        rw [stage] at remaining
        exact absurd remaining List.not_mem_nil

/-- Whoever has changed the registry relies on the change. -/
theorem fits_changed {picture : Picture} {joined : Bool}
    (told : picture.Registered (named connection) ↔ joined = true) :
    Fits named picture phases ⟨connection, .changed joined⟩ where
  read _ read := absurd read (Option.not_mem_none _)
  greeted := by
    intro members greeted
    cases greeted
  told := by
    intro joined outcome
    obtain rfl := Option.some.inj outcome
    exact told
  others _ remaining := absurd remaining List.not_mem_nil

/-- Whoever tells others relies only on what it tells them. -/
theorem fits_tell {picture : Picture} {joined : Bool} {remaining : List ConnectionId}
    (told : picture.Registered (named connection) ↔ joined = true)
    (other : ∀ receiver ∈ remaining, named receiver ≠ named connection) :
    Fits named picture phases ⟨connection, .tell joined remaining⟩ := by
  cases remaining with
  | nil => exact fits_of_inactive rfl
  | cons receiver remaining =>
      refine ⟨?_, ?_, ?_, other⟩
      · exact fun _ read => absurd read (Option.not_mem_none _)
      · intro members greeted
        cases greeted
      · intro joined outcome
        obtain rfl := Option.some.inj outcome
        exact told

end Phases

/-! ## Each step keeps the clients informed -/

section Steps

variable {before after : Picture} {phases others : Multiset Phase} {connection : ConnectionId}
  {stage next : Stage} {nickname : Nickname}

/-- The participants of the others are the same. -/
theorem registered_congr (same : after.holder nickname = before.holder nickname) :
    after.Registered nickname ↔ before.Registered nickname := by
  rw [Picture.Registered, same, Picture.Registered]

/-- Nobody else joins or leaves under the nickname of one that does. -/
theorem Agrees.apart (agrees : Agrees named before (⟨connection, stage⟩ ::ₘ others))
    (active : stage.active = true) : named connection ∉ busy named others := by
  have alone := agrees.alone
  rw [busy_cons, if_pos active] at alone
  exact (Multiset.nodup_cons.mp alone).1

/-- What the others rely on, after a step of a participant that they see as it is, or that has
yet to be announced. -/
theorem Agrees.fits_others (agrees : Agrees named before (⟨connection, stage⟩ ::ₘ others))
    (apart : named connection ∉ busy named others)
    (holders : ∀ nickname, nickname ≠ named connection →
      after.holder nickname = before.holder nickname)
    (shows : ∀ phase ∈ others, ∀ members, phase.stage = .greeted members → ∀ nickname,
      (nickname ∈ after.shown phase.connection ↔ nickname ∈ before.shown phase.connection))
    (seen : next.Unannounced ∨ ∀ phase ∈ others, ∀ members ∈ phase.stage.read,
      (named connection ∈ members ↔ after.Registered (named connection))) :
    ∀ phase ∈ others, Fits named after (⟨connection, next⟩ ::ₘ others) phase := by
  intro phase member
  have fits := agrees.fits phase (Multiset.mem_cons_of_mem member)
  refine ⟨?_, ?_, ?_, fits.others⟩
  · intro members read nickname differs announced
    by_cases same : nickname = named connection
    · subst same
      rcases seen with yet | seen
      · exact absurd (unannounced_cons.mpr (.inl ⟨rfl, yet⟩)) announced
      · exact seen phase member members read
    · rw [registered_congr (holders nickname same)]
      refine fits.read members read nickname differs fun unannounced => announced ?_
      exact unannounced_of_ne same unannounced
  · intro members greeted nickname
    rw [shows phase member members greeted nickname]
    exact fits.greeted members greeted nickname
  · intro joined told
    have other := ne_of_active apart member (Stage.active_of_outcome told)
    rw [registered_congr (holders _ other)]
    exact fits.told joined told

/-- A connection that is not owed news of another participant shows it if it is registered. -/
theorem Agrees.known_other (agrees : Agrees named before (⟨connection, stage⟩ ::ₘ others))
    {holder : ConnectionId} (held : before.holder nickname = some holder) {other : Nickname}
    (differs : other ≠ nickname) (apart : other ≠ named connection)
    (told : ¬ Owed named (⟨connection, next⟩ ::ₘ others) other holder) :
    other ∈ before.shown holder ↔ before.Registered other :=
  agrees.known nickname holder held other differs fun owed => told (owed_of_ne apart owed)

/-- A participant goes on, and nothing is written. -/
theorem Agrees.restage (agrees : Agrees named before (⟨connection, stage⟩ ::ₘ others))
    (apart : named connection ∉ busy named others)
    (known : ∀ nickname holder, before.holder nickname = some holder → named connection ≠ nickname →
      ¬ next.Owes holder →
        (named connection ∈ before.shown holder ↔ before.Registered (named connection)))
    (seen : next.Unannounced ∨ ∀ phase ∈ others, ∀ members ∈ phase.stage.read,
      (named connection ∈ members ↔ before.Registered (named connection)))
    (fits : Fits named before (⟨connection, next⟩ ::ₘ others) ⟨connection, next⟩) :
    Agrees named before (⟨connection, next⟩ ::ₘ others) where
  alone := nodup_busy_cons (nodup_busy_of_cons agrees.alone) apart
  own := agrees.own
  self := agrees.self
  known := by
    intro nickname holder held other differs told
    by_cases same : other = named connection
    · subst same
      refine known nickname holder held differs fun owes => told ?_
      exact owed_cons.mpr (.inl ⟨rfl, owes⟩)
    · exact agrees.known_other held differs same told
  fits := by
    intro phase member
    rcases Multiset.mem_cons.mp member with rfl | member
    · exact fits
    · exact agrees.fits_others apart (fun _ _ => rfl) (fun _ _ _ _ _ => Iff.rfl) seen phase member

/-- The member of a participant is added. -/
theorem Agrees.enter (agrees : Agrees named before (⟨connection, .idle⟩ ::ₘ others))
    (apart : named connection ∉ busy named others) :
    Agrees named before (⟨connection, .added⟩ ::ₘ others) := by
  refine agrees.restage apart ?_ (.inl trivial) ⟨?_, ?_, ?_, ?_⟩
  · exact fun _ _ _ _ told => absurd trivial told
  · exact fun _ read => absurd read (Option.not_mem_none _)
  · intro members greeted
    cases greeted
  · exact fun _ told => absurd told (Option.not_mem_none _)
  · exact fun _ remaining => absurd remaining List.not_mem_nil

/-- A participant reads the members. -/
theorem Agrees.look {members : List Nickname}
    (agrees : Agrees named before (⟨connection, .added⟩ ::ₘ others))
    (aware : ∀ nickname, nickname ≠ named connection → Unannounced named others nickname ∨
      (nickname ∈ members ↔ before.Registered nickname)) :
    Agrees named before (⟨connection, .waiting members⟩ ::ₘ others) := by
  have apart := agrees.apart rfl
  refine agrees.restage apart ?_ (.inl trivial) ⟨?_, ?_, ?_, ?_⟩
  · exact fun _ _ _ _ told => absurd trivial told
  · intro others read nickname differs announced
    obtain rfl := Option.some.inj read
    refine (aware nickname differs).resolve_left fun unannounced => announced ?_
    exact unannounced_cons.mpr (.inr unannounced)
  · intro members greeted
    cases greeted
  · exact fun _ told => absurd told (Option.not_mem_none _)
  · exact fun _ remaining => absurd remaining List.not_mem_nil

/-- A client is shown the members that have been read. -/
theorem Agrees.greet {members : List Nickname}
    (agrees : Agrees named before (⟨connection, .waiting members⟩ ::ₘ others))
    (holders : after.holder = before.holder)
    (shows : ∀ nickname, nickname ∈ after.shown connection ↔
      nickname ∈ members ∨ nickname = named connection)
    (same : ∀ other, other ≠ connection → after.shown other = before.shown other) :
    Agrees named after (⟨connection, .greeted members⟩ ::ₘ others) := by
  have apart := agrees.apart rfl
  have registered (nickname : Nickname) : after.Registered nickname ↔
      before.Registered nickname := registered_congr (congrFun holders nickname)
  have fits : Fits named after (⟨connection, .greeted members⟩ ::ₘ others)
      ⟨connection, .greeted members⟩ := by
    refine ⟨?_, ?_, ?_, ?_⟩
    · intro others read nickname differs announced
      obtain rfl := Option.some.inj read
      rw [registered]
      refine (agrees.fits _ (Multiset.mem_cons_self _ _)).read members rfl nickname differs ?_
      exact fun unannounced => announced (unannounced_of_ne differs unannounced)
    · intro others greeted
      obtain rfl := Stage.greeted.inj greeted
      exact shows
    · exact fun _ told => absurd told (Option.not_mem_none _)
    · exact fun _ remaining => absurd remaining List.not_mem_nil
  refine ⟨nodup_busy_cons (nodup_busy_of_cons agrees.alone) apart, ?_, ?_, ?_, ?_⟩
  · rw [holders]
    exact agrees.own
  · intro nickname holder held
    rw [holders] at held
    by_cases here : holder = connection
    · rw [here] at held ⊢
      exact (shows nickname).mpr (.inr (agrees.own nickname connection held).symm)
    · rw [same holder here]
      exact agrees.self nickname holder held
  · intro nickname holder held other differs told
    rw [holders] at held
    by_cases here : holder = connection
    · subst here
      obtain rfl := agrees.own nickname holder held
      have announced : ¬ Unannounced named (⟨holder, .greeted members⟩ ::ₘ others) other :=
        fun unannounced => told (owed_of_unannounced unannounced)
      rw [shows, ← fits.read members rfl other differs announced]
      exact or_iff_left differs
    · rw [same holder here, registered]
      exact agrees.known_other held differs (ne_of_not_owed told trivial) told
  · intro phase member
    rcases Multiset.mem_cons.mp member with rfl | member
    · exact fits
    · refine agrees.fits_others apart (fun _ _ => congrFun holders _) ?_ ?_ phase member
      · intro phase member members greeted nickname
        have read : members ∈ phase.stage.read := greeted ▸ rfl
        have other := ne_of_active apart member (Stage.active_of_read read)
        rw [same _ fun here => other (congrArg named here)]
      · exact .inl trivial

/-- A participant is registered. -/
theorem Agrees.register {members : List Nickname}
    (agrees : Agrees named before (⟨connection, .greeted members⟩ ::ₘ others))
    (holders : ∀ nickname, after.holder nickname =
      if nickname = named connection then some connection else before.holder nickname)
    (shows : after.shown = before.shown) :
    Agrees named after (⟨connection, .changed true⟩ ::ₘ others) := by
  have apart := agrees.apart rfl
  have fits := agrees.fits _ (Multiset.mem_cons_self _ _)
  have elsewhere (nickname : Nickname) (other : nickname ≠ named connection) :
      after.holder nickname = before.holder nickname := by rw [holders, if_neg other]
  have here : after.holder (named connection) = some connection := by rw [holders, if_pos rfl]
  refine ⟨nodup_busy_cons (nodup_busy_of_cons agrees.alone) apart, ?_, ?_, ?_, ?_⟩
  · intro nickname holder held
    by_cases own : nickname = named connection
    · rw [own, here] at held
      rw [own, Option.some.inj held]
    · rw [elsewhere nickname own] at held
      exact agrees.own nickname holder held
  · intro nickname holder held
    rw [shows]
    by_cases own : nickname = named connection
    · rw [own, here] at held
      rw [own, ← Option.some.inj held]
      exact (fits.greeted members rfl _).mpr (.inr rfl)
    · rw [elsewhere nickname own] at held
      exact agrees.self nickname holder held
  · intro nickname holder held other differs told
    have apart := ne_of_not_owed told trivial
    rw [shows, registered_congr (elsewhere other apart)]
    by_cases own : nickname = named connection
    · rw [own, here] at held
      rw [← Option.some.inj held, fits.greeted members rfl, or_iff_left apart]
      refine fits.read members rfl other apart fun unannounced => told ?_
      exact owed_of_unannounced (unannounced_of_ne apart unannounced)
    · rw [elsewhere nickname own] at held
      exact agrees.known_other held differs apart told
  · intro phase member
    rcases Multiset.mem_cons.mp member with rfl | member
    · refine fits_changed ?_
      rw [Picture.Registered, here]
      exact iff_of_true rfl rfl
    · refine agrees.fits_others apart elsewhere ?_ ?_ phase member
      · intro phase member members greeted nickname
        rw [shows]
      · exact .inl trivial

/-- A participant is no longer registered. -/
theorem Agrees.unregister (agrees : Agrees named before (⟨connection, .idle⟩ ::ₘ others))
    (apart : named connection ∉ busy named others)
    (holders : ∀ nickname, after.holder nickname =
      if nickname = named connection then none else before.holder nickname)
    (shows : after.shown = before.shown) :
    Agrees named after (⟨connection, .changed false⟩ ::ₘ others) := by
  have elsewhere (nickname : Nickname) (other : nickname ≠ named connection) :
      after.holder nickname = before.holder nickname := by rw [holders, if_neg other]
  have gone : after.holder (named connection) = none := by rw [holders, if_pos rfl]
  have kept {nickname : Nickname} {holder : ConnectionId}
      (held : after.holder nickname = some holder) : before.holder nickname = some holder := by
    rw [holders] at held
    split at held
    · cases held
    · exact held
  refine ⟨nodup_busy_cons (nodup_busy_of_cons agrees.alone) apart, ?_, ?_, ?_, ?_⟩
  · exact fun nickname holder held => agrees.own nickname holder (kept held)
  · rw [shows]
    exact fun nickname holder held => agrees.self nickname holder (kept held)
  · intro nickname holder held other differs told
    have apart := ne_of_not_owed told trivial
    rw [shows, registered_congr (elsewhere other apart)]
    exact agrees.known_other (kept held) differs apart told
  · intro phase member
    rcases Multiset.mem_cons.mp member with rfl | member
    · refine fits_changed ?_
      rw [Picture.Registered, gone]
      exact iff_of_false Bool.false_ne_true Bool.false_ne_true
    · refine agrees.fits_others apart elsewhere ?_ ?_ phase member
      · intro phase member members greeted nickname
        rw [shows]
      · exact .inl trivial

/-- The connections to be told are those of the other registered participants. -/
theorem Agrees.list {joined : Bool} {remaining : List ConnectionId}
    (agrees : Agrees named before (⟨connection, .changed joined⟩ ::ₘ others))
    (targets : ∀ receiver, receiver ∈ remaining ↔
      ∃ nickname, nickname ≠ named connection ∧ before.holder nickname = some receiver)
    (aware : ∀ phase ∈ others, ∀ members ∈ phase.stage.read,
      (named connection ∈ members ↔ joined = true)) :
    Agrees named before (⟨connection, .tell joined remaining⟩ ::ₘ others) := by
  have apart := agrees.apart rfl
  have told := (agrees.fits _ (Multiset.mem_cons_self _ _)).told joined rfl
  refine agrees.restage apart ?_ ?_ (fits_tell told ?_)
  · intro nickname holder held differs owes
    rw [Stage.owes_tell, targets] at owes
    exact absurd ⟨nickname, differs.symm, held⟩ owes
  · exact .inr fun phase member members read => (aware phase member members read).trans told.symm
  · intro receiver member
    obtain ⟨nickname, differs, held⟩ := (targets receiver).mp member
    rw [agrees.own nickname receiver held]
    exact differs

/-- Whoever has read the members has read one that is being announced as it is announced. -/
theorem Agrees.seen_of_telling {joined : Bool} {remaining : List ConnectionId} {phase : Phase}
    {members : List Nickname}
    (agrees : Agrees named before (⟨connection, .telling joined remaining⟩ ::ₘ others))
    (member : phase ∈ others) (read : members ∈ phase.stage.read) :
    named connection ∈ members ↔ joined = true := by
  have apart := agrees.apart rfl
  have differs := (ne_of_active apart member (Stage.active_of_read read)).symm
  rw [← (agrees.fits _ (Multiset.mem_cons_self _ _)).told joined rfl]
  refine (agrees.fits phase (Multiset.mem_cons_of_mem member)).read members read _ differs ?_
  rw [unannounced_cons]
  intro unannounced
  rcases unannounced with own | other
  · exact own.2
  · exact apart (mem_busy_of_unannounced other)

section Telling

variable {joined : Bool} {receiver : ConnectionId} {remaining : List ConnectionId}
  (agrees : Agrees named before (⟨connection, .telling joined (receiver :: remaining)⟩ ::ₘ others))
  (shows : (before.shown receiver).Nonempty → ∀ nickname, nickname ∈ after.shown receiver ↔
    if nickname = named connection then joined = true else nickname ∈ before.shown receiver)
  (same : ∀ other, other ≠ receiver → after.shown other = before.shown other)

include agrees shows same

/-- A registered participant shows one that has been announced to it, and whom it showed before. -/
theorem Agrees.known_of_telling {holder : ConnectionId}
    (held : before.holder nickname = some holder) {other : Nickname} (differs : other ≠ nickname)
    (told : ¬ Owed named (⟨connection, .tell joined remaining⟩ ::ₘ others) other holder) :
    other ∈ after.shown holder ↔ before.Registered other := by
  have inRoom : (before.shown holder).Nonempty := ⟨nickname, agrees.self nickname holder held⟩
  by_cases here : holder = receiver
  · rw [here] at inRoom held ⊢
    rw [shows inRoom]
    split
    · rename_i own
      rw [own, (agrees.fits _ (Multiset.mem_cons_self _ _)).told joined rfl]
    · rename_i apart
      exact agrees.known_other held differs apart (here ▸ told)
  · rw [same holder here]
    refine agrees.known nickname holder held other differs fun owed => told ?_
    rw [owed_cons] at owed ⊢
    refine owed.imp_left fun own => ⟨own.1, ?_⟩
    exact Stage.owes_tell.mpr ((List.mem_cons.mp own.2).resolve_left here)

/-- Whoever is about to be registered is told nothing new. -/
theorem Agrees.greeted_of_telling {phase : Phase} (member : phase ∈ others)
    {members : List Nickname} (greeted : phase.stage = .greeted members) :
    nickname ∈ after.shown phase.connection ↔ nickname ∈ before.shown phase.connection := by
  have shown := (agrees.fits phase (Multiset.mem_cons_of_mem member)).greeted members greeted
  have read : members ∈ phase.stage.read := greeted ▸ rfl
  have differs := (ne_of_active (agrees.apart rfl) member (Stage.active_of_read read)).symm
  by_cases here : phase.connection = receiver
  · have inRoom : (before.shown receiver).Nonempty := here ▸ ⟨_, (shown _).mpr (.inr rfl)⟩
    rw [here, shows inRoom]
    split
    · rename_i own
      rw [own, ← here, shown, or_iff_left differs, agrees.seen_of_telling member read]
    · exact Iff.rfl
  · rw [same _ here]

/-- One connection is told. -/
theorem Agrees.tell (holders : after.holder = before.holder) :
    Agrees named after (⟨connection, .tell joined remaining⟩ ::ₘ others) := by
  have fits := agrees.fits _ (Multiset.mem_cons_self _ _)
  have told := fits.told joined rfl
  have registered (nickname : Nickname) : after.Registered nickname ↔
      before.Registered nickname := registered_congr (congrFun holders nickname)
  refine ⟨nodup_busy_cons (nodup_busy_of_cons agrees.alone) (agrees.apart rfl), ?_, ?_, ?_, ?_⟩
  · rw [holders]
    exact agrees.own
  · intro nickname holder held
    rw [holders] at held
    have inside := agrees.self nickname holder held
    by_cases here : holder = receiver
    · subst here
      have differs := fits.others holder List.mem_cons_self
      rw [agrees.own nickname holder held] at differs
      rw [shows ⟨nickname, inside⟩, if_neg differs]
      exact inside
    · rw [same holder here]
      exact inside
  · intro nickname holder held other differs owed
    rw [holders] at held
    rw [registered]
    exact agrees.known_of_telling shows same held differs owed
  · intro phase member
    rcases Multiset.mem_cons.mp member with rfl | member
    · refine fits_tell ((registered _).trans told) fun other later => ?_
      exact fits.others other (List.mem_cons_of_mem _ later)
    · have kept (nickname : Nickname) (_ : nickname ≠ named connection) :
          after.holder nickname = before.holder nickname := congrFun holders nickname
      refine agrees.fits_others (agrees.apart rfl) kept ?_ ?_ phase member
      · intro phase member members greeted nickname
        exact agrees.greeted_of_telling shows same member greeted
      · refine .inr fun phase member members read => ?_
        rw [agrees.seen_of_telling member read, registered, told]

end Telling

/-- A message about one participant is not received. -/
theorem Agrees.skip {joined : Bool} {receiver : ConnectionId} {remaining : List ConnectionId}
    (agrees : Agrees named before
      (⟨connection, .telling joined (receiver :: remaining)⟩ ::ₘ others))
    (nobody : ∀ nickname, before.holder nickname ≠ some receiver) :
    Agrees named before (⟨connection, .tell joined remaining⟩ ::ₘ others) := by
  have apart := agrees.apart rfl
  have fits := agrees.fits _ (Multiset.mem_cons_self _ _)
  have told := fits.told joined rfl
  refine agrees.restage apart ?_ ?_ (fits_tell told fun other later => ?_)
  · intro nickname holder held differs owes
    refine agrees.known nickname holder held _ differs fun owed => owes ?_
    have other : holder ≠ receiver := by
      rintro rfl
      exact nobody nickname held
    rcases owed_cons.mp owed with own | others
    · exact Stage.owes_tell.mpr ((List.mem_cons.mp own.2).resolve_left other)
    · exact absurd (mem_busy_of_owed others) apart
  · exact .inr fun phase member members read =>
      (agrees.seen_of_telling member read).trans told.symm
  · exact fits.others other (List.mem_cons_of_mem _ later)

/-- What clients show has changed only for those that are neither registered nor about to be. -/
theorem Agrees.congr_shown (agrees : Agrees named before phases)
    (holders : after.holder = before.holder)
    (held : ∀ nickname holder, before.holder nickname = some holder → ∀ other,
      (other ∈ after.shown holder ↔ other ∈ before.shown holder))
    (greeted : ∀ phase ∈ phases, ∀ members, phase.stage = .greeted members → ∀ other,
      (other ∈ after.shown phase.connection ↔ other ∈ before.shown phase.connection)) :
    Agrees named after phases := by
  have registered (nickname : Nickname) : after.Registered nickname ↔
      before.Registered nickname := registered_congr (congrFun holders nickname)
  refine ⟨agrees.alone, ?_, ?_, ?_, fun phase member => ?_⟩
  · rw [holders]
    exact agrees.own
  · intro nickname holder holds
    rw [holders] at holds
    exact (held nickname holder holds nickname).mpr (agrees.self nickname holder holds)
  · intro nickname holder holds other differs told
    rw [holders] at holds
    rw [held nickname holder holds, registered]
    exact agrees.known nickname holder holds other differs told
  · have fits := agrees.fits phase member
    refine ⟨?_, ?_, ?_, fits.others⟩
    · intro members read nickname differs announced
      rw [registered]
      exact fits.read members read nickname differs announced
    · intro members stage nickname
      rw [greeted phase member members stage]
      exact fits.greeted members stage nickname
    · intro joined outcome
      rw [registered]
      exact fits.told joined outcome

/-- A connection is told once more that somebody is gone who stays away. -/
theorem Agrees.again (agrees : Agrees named before phases) {gone : Nickname}
    {receiver : ConnectionId} (absent : ¬ before.Registered gone)
    (away : gone ∉ busy named phases) (holders : after.holder = before.holder)
    (shows : (before.shown receiver).Nonempty → ∀ nickname, nickname ∈ after.shown receiver ↔
      if nickname = gone then false = true else nickname ∈ before.shown receiver)
    (same : ∀ other, other ≠ receiver → after.shown other = before.shown other) :
    Agrees named after phases := by
  have unseen {holder : ConnectionId} (inRoom : (before.shown holder).Nonempty)
      (unseen : gone ∉ before.shown holder) (other : Nickname) :
      other ∈ after.shown holder ↔ other ∈ before.shown holder := by
    by_cases here : holder = receiver
    · rw [here] at inRoom unseen ⊢
      rw [shows inRoom]
      split
      · rename_i equal
        rw [equal]
        exact iff_of_false Bool.false_ne_true unseen
      · exact Iff.rfl
    · rw [same holder here]
  refine agrees.congr_shown holders ?_ ?_
  · intro nickname holder held
    have differs : gone ≠ nickname := by
      rintro rfl
      exact absent (by rw [Picture.Registered, held]; rfl)
    refine unseen ⟨nickname, agrees.self nickname holder held⟩ fun seen => absent ?_
    refine (agrees.known nickname holder held gone differs fun owed => ?_).mp seen
    exact away (mem_busy_of_owed owed)
  · intro phase member members greeted
    have fits := agrees.fits phase member
    have read : members ∈ phase.stage.read := greeted ▸ rfl
    have differs : gone ≠ named phase.connection := by
      rintro rfl
      exact away (mem_busy member (Stage.active_of_read read))
    have shown := fits.greeted members greeted
    refine unseen ⟨_, (shown _).mpr (.inr rfl)⟩ ?_
    rw [shown, or_iff_left differs, fits.read members read gone differs]
    · exact absent
    · exact fun unannounced => away (mem_busy_of_unannounced unannounced)

/-- Who neither joins nor leaves may as well be gone. -/
theorem agrees_cons_of_inactive (inactive : stage.active = false) :
    Agrees named before (⟨connection, stage⟩ ::ₘ others) ↔ Agrees named before others := by
  have inactive' : ¬ stage.active = true := Bool.eq_false_iff.mp inactive
  have same : busy named (⟨connection, stage⟩ ::ₘ others) = busy named others := by
    rw [busy_cons, if_neg inactive']
  have unannounced (nickname : Nickname) :
      Unannounced named (⟨connection, stage⟩ ::ₘ others) nickname ↔
        Unannounced named others nickname := by
    rw [unannounced_cons]
    exact or_iff_right fun own => inactive' (Stage.active_of_unannounced own.2)
  have owed (nickname : Nickname) (holder : ConnectionId) :
      Owed named (⟨connection, stage⟩ ::ₘ others) nickname holder ↔
        Owed named others nickname holder := by
    rw [owed_cons]
    exact or_iff_right fun own => inactive' (Stage.active_of_owes own.2)
  have fits (phase : Phase) : Fits named before (⟨connection, stage⟩ ::ₘ others) phase ↔
      Fits named before others phase := by
    constructor
    · intro fits
      refine ⟨?_, fits.greeted, fits.told, fits.others⟩
      simpa only [unannounced] using fits.read
    · intro fits
      refine ⟨?_, fits.greeted, fits.told, fits.others⟩
      simpa only [unannounced] using fits.read
  constructor
  · intro agrees
    refine ⟨same ▸ agrees.alone, agrees.own, agrees.self, ?_, fun phase member => ?_⟩
    · simpa only [owed] using agrees.known
    · exact (fits phase).mp (agrees.fits phase (Multiset.mem_cons_of_mem member))
  · intro agrees
    refine ⟨same ▸ agrees.alone, agrees.own, agrees.self, ?_, fun phase member => ?_⟩
    · simpa only [owed] using agrees.known
    · rcases Multiset.mem_cons.mp member with rfl | member
      · exact fits_of_inactive inactive
      · exact (fits phase).mpr (agrees.fits phase member)

end Steps

/-! ## Steps that concern nobody's presence -/

section Apart

variable {before after world : World} {connection : ConnectionId}

/-- What a client shows follows its own connection. -/
@[simp] theorem clientRoom_setConnection {id : ConnectionId} {entry : Connection} :
    clientRoom (world.setConnection id entry) connection =
      if connection = id then activeRoom (entry.received ++ entry.queue)
      else clientRoom world connection := by
  unfold clientRoom World.setConnection
  by_cases same : connection = id
  · subst same
    simp only [Function.update_self, ↓reduceIte]
  · simp only [Function.update_of_ne same, same, ↓reduceIte]

/-- A message that is written comes before the queued ones. -/
@[simp] theorem clientRoom_receive {id : ConnectionId} {message : ServerMessage} :
    clientRoom (world.receive id message) connection = if connection = id then
        activeRoom ((world.connections id).received ++ message :: (world.connections id).queue)
      else clientRoom world connection := by
  rw [World.receive, clientRoom_setConnection, List.append_assoc, List.singleton_append]

/-- A message that is queued is shown last. -/
@[simp] theorem clientRoom_enqueue {id : ConnectionId} {message : ServerMessage} :
    clientRoom (world.enqueue id message) connection =
      if connection = id then onMessage (clientRoom world id) message
      else clientRoom world connection := by
  rw [World.enqueue, clientRoom_setConnection, ← List.append_assoc, activeRoom_append]
  rfl

/-- What happens besides does not change the picture. -/
theorem Besides.picture_eq (besides : Besides node room before after) :
    picture node room after = picture node room before := by
  simp only [picture, besides.registry, besides.clients]

/-- The step concerns no member, no peer and no client. -/
def Apart : Op → Prop
  | .redis (.sadd ..) | .redis (.smembers _) | .peers .. | .trySend .. | .sendMessage .. => False
  | _ => True

/-- A step that concerns nobody's presence does not change the picture. -/
theorem picture_of_apart {op : Op} {reply : op.Reply} (step : World.exec op before reply after)
    (apart : Apart op) : picture node room after = picture node room before := by
  cases op with
  | peers | trySend | sendMessage => exact apart.elim
  | sessions id command =>
      obtain ⟨sessions, -, rfl⟩ := step
      refine Besides.picture_eq ⟨fun nickname => ?_, fun _ => rfl⟩
      rw [World.peers_setSessions]
  | redis =>
      obtain ⟨_, _, -, -, rfl⟩ := step
      rfl
  | createPeer => rcases step with ⟨_, _, _, _, rfl⟩ | ⟨_, rfl⟩ <;> rfl
  | outOfFuel => exact reply.elim
  | setContext id change =>
      obtain rfl : after = _ := step
      refine Besides.picture_eq ⟨fun _ => rfl, fun connection => ?_⟩
      rw [clientRoom_setConnection]
      split
      · rename_i same
        rw [same, clientRoom]
      · rfl
  | newUuid | deletePeer | closeRoomsBySfu =>
      obtain ⟨-, rfl⟩ := step
      rfl
  | pingSignaling | pingSfu => rw [show after = _ from step]
  | _ => rw [step.2]

/-- Nor does it bring a participant further. -/
theorem advance_of_apart {phase : Phase} {op : Op} (apart : Apart op) (reply : op.Reply) :
    phase.advance op reply = phase := by
  unfold Phase.advance
  split
  · exact apart.elim
  · exact apart.elim
  · exact apart.elim
  · exact apart.elim
  · exact apart.elim
  · exact apart.elim
  · exact apart.elim
  · rfl

/-- Such a step may be taken at any time. -/
theorem inert_of_apart (phase : Phase) (op : Op) (apart : Apart op) :
    (outline named node room).Inert phase op where
  asserts _ := trivial
  keeps := by
    intro before others reply after agrees effect
    change Agrees named (picture node room after.1) _
    rw [picture_of_apart effect.1 apart]
    exact agrees
  still := advance_of_apart apart

/-- A part of a handler that concerns nobody's presence. -/
theorem safe_of_apart {α : Type} {phase : Phase} {program : Call α} (only : program.Only Apart) :
    (outline named node room).Safe (fun last _ => last = phase) phase program :=
  Outline.Safe.of_only (only.mono (inert_of_apart phase))

/-- A program of such steps, by one that neither joins nor leaves. -/
theorem safe_of_inactive {α : Type} {phase : Phase} {program : Call α}
    (inactive : phase.stage.active = false) (only : program.Only Apart) :
    (outline named node room).Safe (fun last _ => last.stage.active = false) phase program := by
  refine (safe_of_apart only).mono ?_
  intro last value same
  rw [same]
  exact inactive

/-- Such a part, and the rest. -/
theorem safe_apart_bind {α β : Type} {phase : Phase} {post : Phase → β → Prop}
    {program : Call α} {rest : α → Call β} (only : program.Only Apart)
    (next : ∀ value, (outline named node room).Safe post phase (rest value)) :
    (outline named node room).Safe post phase (program >>= rest) := by
  refine Outline.Safe.bind ((safe_of_apart only).mono ?_)
  intro last value same
  rw [same]
  exact next value

/-- Such a part of a handler that may fail, and the rest. -/
theorem safe_apart_except_bind {ε α β : Type} {phase : Phase} {post : Phase → Except ε β → Prop}
    {program : ExceptT ε Call α} {rest : α → ExceptT ε Call β} (only : program.run.Only Apart)
    (failed : ∀ error, post phase (.error error))
    (next : ∀ value, (outline named node room).Safe post phase (rest value).run) :
    (outline named node room).Safe post phase (program >>= rest).run := by
  refine Outline.Safe.except_bind ((safe_of_apart only).mono ?_)
  intro last value same
  rw [same]
  cases value with
  | error error => exact failed error
  | ok value => exact next value

/-- A command that concerns nobody's presence does not fail. -/
theorem safe_redisCommand {ε : Type} {onFailure : RedisFailure → ε} {command : Command}
    {phase : Phase} (apart : Apart (.redis command)) :
    (outline named node room).Safe (fun last result => last = phase ∧ ∃ value, result = .ok value)
      phase (redisCommand onFailure command).run := by
  refine Outline.Safe.inert (inert_of_apart phase (.redis command) apart) ?_
  intro before reply after effect
  obtain ⟨⟨value, _, _, rfl, -⟩, -⟩ := effect
  exact ⟨rfl, value, rfl⟩

end Apart

/-! ## Steps that concern the room -/

section Handlers

variable {state : State} {connection : ConnectionId} {sessionId : SessionId} {roomId : RoomId}
  {nickname : Nickname} {sfuAddr : Address} {joined : Bool}

/-- The registered participants are the nicknames of the room's peers. -/
theorem registered_iff {world : World} : (picture node room world).Registered nickname ↔
    nickname ∈ PeerRegistry.nicknames (world.nodes node).peers room := by
  rw [PeerRegistry.mem_nicknames, ← Finmap.lookup_isSome]
  simp [Picture.Registered, picture]

/-- Members that have been read are known to be registered, or have yet to be announced. -/
theorem known_of_aware {world : World} {others : Multiset Phase} {members : List Nickname}
    (all : Enumerates members (world.redis.roomMembers room))
    (aware : Aware named node room world ⟨connection, .added⟩ (.redis (.smembers room)) others)
    (nickname : Nickname) (other : nickname ≠ named connection) :
    Unannounced named others nickname ∨
      (nickname ∈ members ↔ (picture node room world).Registered nickname) := by
  rw [all.mem_iff, registered_iff]
  by_cases here : nickname ∈ world.redis.roomMembers room ∪
      PeerRegistry.nicknames (world.nodes node).peers room
  · exact aware nickname here other
  · rw [Finset.mem_union, not_or] at here
    exact .inr (iff_of_false here.1 here.2)

/-- The member of a participant is added, and the members are read. -/
theorem joinRoom_safe : (outline named node room).Safe (fun last result => match result with
    | .ok participants => nickname = named connection ∧ ∃ members,
        last = ⟨connection, .waiting members⟩ ∧ participants = members.filter (· ≠ nickname)
    | .error _ => last = ⟨connection, .idle⟩) ⟨connection, .idle⟩ (joinRoom room nickname).run := by
  refine safe_apart_except_bind (redisCommand_only trivial) (fun _ => rfl) fun bound => ?_
  cases bound with
  | false => rfl
  | true =>
      refine safe_apart_except_bind (redisCommand_only trivial) (fun _ => rfl) fun taken => ?_
      cases taken with
      | true => rfl
      | false =>
          refine Threads.safe_redis fun world _ others agrees allowed => ⟨trivial, ?_⟩
          obtain ⟨⟨own, apart⟩, -⟩ := allowed
          obtain rfl : nickname = named connection := own
          intro value redis effect _
          refine ⟨Agrees.enter agrees apart, ?_⟩
          refine Threads.safe_redis fun world _ others agrees allowed => ⟨trivial, ?_⟩
          obtain ⟨-, aware⟩ := allowed
          intro members redis effect _
          obtain ⟨all, rfl⟩ := effect
          exact ⟨Agrees.look agrees (known_of_aware all aware), rfl, members, rfl, rfl⟩

/-- A participant has a peer of the SFU, which does not fail. -/
theorem ensurePeer_safe {phase : Phase} : (outline named node room).Safe
    (fun last created => last = phase ∧ created = .ok ()) phase
      (state.ensurePeer sfuAddr roomId nickname) := by
  have inert : (outline named node room).Inert phase
      (.createPeer sfuAddr roomId nickname state.node) := inert_of_apart _ _ trivial
  refine Outline.Safe.inert inert fun before reply after effect => ?_
  obtain ⟨-, succeeds, -⟩ := effect
  obtain rfl : reply = _ := succeeds
  exact ⟨rfl, rfl⟩

/-- Entering the room adds the member and reads the others, or leaves the participant where it
was. -/
theorem enterRoom_safe : (outline named node room).Safe (fun last result => match result with
    | .ok participants => nickname = named connection ∧ ∃ members,
        last = ⟨connection, .waiting members⟩ ∧ participants = members.filter (· ≠ nickname)
    | .error _ => last = ⟨connection, .idle⟩) ⟨connection, .idle⟩
      (enterRoom state sfuAddr room nickname).run := by
  refine Outline.Safe.except_bind (Outline.Safe.adapt (joinRoom_safe.mono ?_))
  intro last result entered
  cases result with
  | error error => exact entered
  | ok participants =>
      obtain ⟨own, members, rfl, rest⟩ := entered
      refine Outline.Safe.except_bind (Outline.Safe.lift (ensurePeer_safe.mono ?_))
      intro last created ensured
      obtain ⟨rfl, rfl⟩ := ensured
      exact ⟨own, members, rfl, rest⟩

/-- The room is recorded, which concerns nobody's presence. -/
theorem recordRoom_safe {phase : Phase} : (outline named node room).Safe
    (fun last result => last = phase ∧ result = .ok ()) phase
      (recordRoom state connection sessionId roomId).run := by
  have apart : Apart (.redis (.hset (.session sessionId) "room_id" roomId)) := trivial
  refine Outline.Safe.except_bind (Outline.Safe.adapt ((safe_redisCommand apart).mono ?_))
  intro last result recorded
  obtain ⟨rfl, value, rfl⟩ := recorded
  have sets : (state.setSessionRoom sessionId (some roomId)).Only Apart := issue_only trivial
  have notes (change : ConnectionContext → ConnectionContext) :
      (setContext connection change).Only Apart := issue_only trivial
  refine Outline.Safe.except_bind (Outline.Safe.lift ((safe_of_apart sets).mono ?_))
  intro last _ same
  rw [same]
  refine Outline.Safe.lift ((safe_of_apart (notes _)).mono ?_)
  intro last _ same
  exact ⟨same, rfl⟩

/-- A client is shown who is there. -/
theorem sendJoined_safe {members : List Nickname} :
    (outline named node room).Safe (fun last result => result = .ok () ∧
        last = ⟨connection, .greeted members⟩) ⟨connection, .waiting members⟩
      (sendMessage connection (.joined room (named connection)
        (members.filter (· ≠ named connection)))).run := by
  refine Threads.safe_step fun world _ others agrees allowed => ⟨trivial, ?_⟩
  obtain ⟨-, unchanged⟩ := allowed
  intro sent after effect succeeds
  obtain rfl : sent = true := succeeds
  obtain rfl : after = world.receive connection _ := effect
  refine ⟨Agrees.greet agrees rfl ?_ ?_, rfl, rfl⟩
  · intro nickname
    change nickname ∈ shown (clientRoom _ connection) ↔ _
    rw [clientRoom_receive, if_pos rfl, unchanged, activeRoom_append, List.foldl_cons,
      List.foldl_nil, mem_shown_joined, List.mem_filter, decide_eq_true_iff]
    by_cases own : nickname = named connection
    · simp only [own, or_true]
    · simp only [own, ne_eq, not_false_eq_true, and_true, or_false]
  · intro other apart
    change shown (clientRoom _ other) = shown (clientRoom _ other)
    rw [clientRoom_receive, if_neg apart]

/-- A participant is registered. -/
theorem register_safe {members : List Nickname} (own : state.node = node) :
    (outline named node room).Safe (fun last _ => last = ⟨connection, .changed true⟩)
      ⟨connection, .greeted members⟩
      (state.register room (named connection) ⟨connection, some sfuAddr⟩) := by
  refine Threads.safe_step fun world _ others agrees allowed => ⟨trivial, ?_⟩
  intro _ after effect _
  obtain ⟨peers, rfl, rfl⟩ := effect
  refine ⟨Agrees.register agrees (fun nickname => ?_) rfl, rfl⟩
  simp only [picture, own, World.nodes_setNode, ↓reduceIte, lookup_insert_if, Prod.mk.injEq,
    true_and]
  split
  · rfl
  · rfl

/-- A participant is no longer registered. -/
theorem unregister_safe (own : state.node = node) :
    (outline named node room).Safe (fun last _ => roomId = room ∧ nickname = named connection ∧
        last = ⟨connection, .changed false⟩) ⟨connection, .idle⟩
      (state.unregister roomId nickname) := by
  refine Threads.safe_step fun world _ others agrees allowed => ⟨trivial, ?_⟩
  obtain ⟨⟨here, same, apart⟩, -⟩ := allowed
  obtain rfl : roomId = room := here
  obtain rfl : nickname = named connection := same
  intro _ after effect _
  obtain ⟨peers, rfl, rfl⟩ := effect
  refine ⟨Agrees.unregister agrees apart (fun nickname => ?_) rfl, rfl, rfl, rfl⟩
  simp only [picture, own, World.nodes_setNode, ↓reduceIte, lookup_erase_if, Prod.mk.injEq,
    true_and]
  split
  · rfl
  · rfl

/-- Everybody is told whose connection has not ended. -/
theorem sendToEach_safe {targets : List (Nickname × ConnectionId)} :
    (outline named node room).Safe (fun last _ => last = ⟨connection, .done⟩)
      ⟨connection, .tell joined (targets.map Prod.snd)⟩
      (State.sendToEach (announcement joined (named connection)) targets) := by
  induction targets with
  | nil => rfl
  | cons target targets ih =>
      refine Threads.safe_step fun world _ others agrees allowed => ⟨trivial, ?_⟩
      obtain ⟨-, aware⟩ := allowed
      intro sent after effect succeeds
      obtain ⟨rfl, rfl⟩ := effect
      refine ⟨?_, Outline.Safe.bind (ih.mono fun _ _ ended => ended)⟩
      by_cases accepts : world.Accepts target.2
      · rw [if_pos accepts]
        refine Agrees.tell agrees ?_ ?_ rfl
        · intro inRoom nickname
          change nickname ∈ shown (clientRoom _ target.2) ↔ _
          rw [clientRoom_enqueue, if_pos rfl]
          exact mem_shown_announcement inRoom
        · intro other apart
          change shown (clientRoom _ other) = shown (clientRoom _ other)
          rw [clientRoom_enqueue, if_neg apart]
      · rw [if_neg accepts]
        have ended : (world.connections target.2).receiving = false :=
          succeeds.resolve_left fun sent => accepts (of_decide_eq_true sent)
        refine Agrees.skip agrees fun nickname held => ?_
        obtain ⟨entry, found, same⟩ := Option.map_eq_some_iff.mp held
        have registered : nickname ∈ PeerRegistry.nicknames (world.nodes node).peers room :=
          (PeerRegistry.mem_nicknames _).mpr (Finmap.mem_of_lookup_eq_some found)
        rcases aware with receiving | gone
        · exact absurd receiving (Bool.eq_false_iff.mp ended)
        · exact gone nickname registered entry found same

/-- A step of the announcements of stale participants. -/
def Late : Op → Prop
  | .redis (.sadd ..) | .redis (.smembers _) | .peers _ (.register ..) | .peers _ .clear
  | .sendMessage .. => False
  | .trySend _ message => ∃ nickname, message = .participantLeft nickname
  | _ => True

/-- A step that concerns nobody's presence may come among the announcements of stale
participants. -/
theorem late_of_apart {op : Op} (apart : Apart op) : Late op := by
  cases op with
  | redis command =>
      cases command with
      | sadd | smembers => exact apart.elim
      | _ => trivial
  | peers | trySend | sendMessage => exact apart.elim
  | _ => trivial

/-- The peers of the room are the same. -/
theorem picture_setPeers {world : World} {id : NodeId} {peers : PeerRegistry}
    (same : node = id → ∀ nickname, peers.lookup (room, nickname) =
      (world.nodes id).peers.lookup (room, nickname)) :
    picture node room (world.setNode id { world.nodes id with peers }) =
      picture node room world := by
  refine Besides.picture_eq ⟨fun nickname => ?_, fun _ => rfl⟩
  rw [World.nodes_setNode]
  split
  · rename_i here
    rw [same here, here]
  · rfl

/-- Detaching a participant that is gone changes no registered one. -/
theorem picture_of_late {world : World} {others : Multiset Phase} {id : NodeId}
    {command : PeerRegistry.Command} {reply : command.Reply} {peers : PeerRegistry}
    (late : Late (.peers id command))
    (aware : Aware named node room world ⟨connection, .done⟩ (.peers id command) others)
    (effect : PeerRegistry.exec command (world.nodes id).peers reply peers) :
    picture node room (world.setNode id { world.nodes id with peers }) =
      picture node room world := by
  cases command with
  | register | clear => exact late.elim
  | unregister roomId nickname =>
      obtain rfl : peers = _ := effect
      refine picture_setPeers fun here query => ?_
      rw [lookup_erase_if]
      split
      · rename_i same
        rw [same]
        exact (Finmap.lookup_eq_none.mpr (here ▸ aware)).symm
      · rfl
  | sender | targets | snapshotRooms | snapshotRoomsWithSfu =>
      rw [effect.2]
      exact picture_setPeers fun _ _ => rfl

/-- Announcing once more that a participant is gone tells nobody anything new. -/
theorem Agrees.enqueue {world : World} {phases : Multiset Phase} {receiver : ConnectionId}
    (agrees : Agrees named (picture node room world) phases)
    (absent : nickname ∉ PeerRegistry.nicknames (world.nodes node).peers room)
    (away : nickname ∉ busy named phases) :
    Agrees named (picture node room (world.enqueue receiver (.participantLeft nickname)))
      phases := by
  have shows (inRoom : (shown (clientRoom world receiver)).Nonempty) (query : Nickname) :
      query ∈ shown (clientRoom (world.enqueue receiver (.participantLeft nickname)) receiver) ↔
        if query = nickname then false = true else query ∈ shown (clientRoom world receiver) := by
    rw [clientRoom_enqueue, if_pos rfl]
    change query ∈ shown (onMessage _ (announcement false nickname)) ↔ _
    exact mem_shown_announcement inRoom
  refine agrees.again (registered_iff.not.mpr absent) away rfl shows fun other differs => ?_
  change shown (clientRoom _ other) = shown (clientRoom _ other)
  rw [clientRoom_enqueue, if_neg differs]

/-- A step of the announcements of stale participants concerns nobody's presence. -/
theorem late_step (op : Op) (phase : Phase) (late : Late op) (done : phase = ⟨connection, .done⟩)
    (state : World × Unit) (others : Multiset Phase)
    (agrees : Agrees named (picture node room state.1) (phase ::ₘ others))
    (allowed : guard named node room state phase op others) (reply : op.Reply)
    (after : World × Unit) (effect : (threads named node room).system.exec op state reply after) :
    Agrees named (picture node room after.1) (phase.advance op reply ::ₘ others) ∧
      phase.advance op reply = ⟨connection, .done⟩ := by
  subst done
  obtain ⟨world, _⟩ := state
  obtain ⟨after, _⟩ := after
  obtain ⟨step, -, -⟩ := effect
  by_cases apart : Apart op
  · rw [advance_of_apart apart reply, picture_of_apart step apart]
    exact ⟨agrees, rfl⟩
  · cases op with
    | peers id command =>
        obtain ⟨peers, effect, rfl⟩ := step
        have still : (⟨connection, .done⟩ : Phase).advance (.peers id command) reply =
            ⟨connection, .done⟩ := by
          cases command <;> rfl
        rw [still, picture_of_late late allowed.2 effect]
        exact ⟨agrees, rfl⟩
    | trySend receiver message =>
        obtain ⟨nickname, rfl⟩ := late
        obtain ⟨rfl, rfl⟩ := step
        obtain ⟨absent, away⟩ : nickname ∉ PeerRegistry.nicknames (world.nodes node).peers room ∧
          nickname ∉ busy named others := allowed.2
        refine ⟨?_, rfl⟩
        change Agrees named (picture node room (if _ then _ else _)) _
        split
        · refine agrees.enqueue absent ?_
          rw [busy_cons]
          exact away
        · exact agrees
    | redis command =>
        cases command with
        | sadd | smembers => exact late.elim
        | _ => exact absurd trivial apart
    | sendMessage => exact late.elim
    | _ => exact absurd trivial apart

/-- The closing of a binding concerns nobody's presence. -/
theorem closeRoomBinding_apart : (closeRoomBinding roomId).run.Only Apart := by
  have releases (instanceId : InstanceId) : (decrementSfuRoomLoad instanceId).run.Only Apart :=
    decrementSfuRoomLoad_only trivial (fun _ => trivial) trivial trivial fun _ => trivial
  exact closeRoomBinding_only trivial trivial releases

/-- The announcements of stale participants tell nobody anything new. -/
theorem detachStalePeers_safe (bound : ℕ) (stale : List Nickname) {reason : String} :
    (outline named node room).Safe (fun last _ => last = ⟨connection, .done⟩) ⟨connection, .done⟩
      (detachStalePeers state roomId reason bound stale) := by
  have announces (nickname : Nickname) : (state.broadcastToRoom roomId (some nickname)
      (.participantLeft nickname)).Only Late :=
    State.broadcastToRoom_only trivial fun _ => ⟨nickname, rfl⟩
  have member (nickname : Nickname) : (State.detachMember roomId nickname).Only Late :=
    State.detachMember_only trivial trivial trivial trivial trivial
  have detaches (nickname : Nickname) : (state.detachPeer roomId nickname reason).Only Late :=
    detachPeer_only trivial trivial trivial (member nickname) (fun _ => trivial)
      (closeRoomBinding_apart.mono fun op apart => late_of_apart apart)
  have only := detachStalePeers_only trivial announces detaches bound stale
  refine Outline.Safe.of_steps ?_ only rfl
  intro op phase late done state others agrees allowed
  refine ⟨trivial, fun reply after effect => ?_⟩
  exact late_step op phase late done state others agrees allowed reply after effect

/-- Every other registered participant is told. -/
theorem announce_safe (own : state.node = node) :
    (outline named node room).Safe (fun last _ => last = ⟨connection, .done⟩)
      ⟨connection, .changed joined⟩
      (announce state room (named connection) (announcement joined (named connection))) := by
  refine Outline.Safe.bind (Threads.safe_step fun world _ others agrees allowed => ⟨trivial, ?_⟩)
  obtain ⟨-, aware⟩ := allowed
  intro targets after effect _
  obtain ⟨peers, ⟨listed, rfl⟩, rfl⟩ := effect
  have same : picture node room (world.setNode state.node (world.nodes state.node)) =
      picture node room world := by
    rw [World.setNode, Function.update_eq_self]
  have told (receiver : ConnectionId) : receiver ∈ targets.map Prod.snd ↔
      ∃ nickname, nickname ≠ named connection ∧
        (picture node room world).holder nickname = some receiver := by
    subst own
    constructor
    · intro member
      obtain ⟨⟨nickname, sender⟩, target, rfl⟩ := List.mem_map.mp member
      obtain ⟨other, entry, found, same⟩ := (listed.2 nickname sender).mp target
      refine ⟨nickname, fun equal => other (congrArg some equal.symm), ?_⟩
      exact Option.map_eq_some_iff.mpr ⟨entry, found, same⟩
    · intro held
      obtain ⟨nickname, other, held⟩ := held
      obtain ⟨entry, found, same⟩ := Option.map_eq_some_iff.mp held
      have excepted : some (named connection) ≠ some nickname :=
        fun equal => other (Option.some.inj equal).symm
      have target := (listed.2 nickname receiver).mpr ⟨excepted, entry, found, same⟩
      exact List.mem_map.mpr ⟨_, target, rfl⟩
  refine ⟨?_, sendToEach_safe.mono ?_⟩
  · change Agrees named (picture node room (world.setNode state.node (world.nodes state.node))) _
    rw [same]
    exact Agrees.list agrees told aware
  · intro last stale ended
    rw [ended]
    exact detachStalePeers_safe _ stale

/-- A participant is detached and the others are told. -/
theorem leaveRoomAndNotify_safe (own : state.node = node) (reason : String) :
    (outline named node room).Safe (fun last _ => last = ⟨connection, .done⟩) ⟨connection, .idle⟩
      (leaveRoomAndNotify state roomId nickname reason) := by
  refine Outline.Safe.bind (safe_apart_bind (State.routeBeforeDetach_only trivial trivial)
    fun route => ?_)
  refine Outline.Safe.bind ((unregister_safe own).mono ?_)
  intro last _ left
  obtain ⟨rfl, rfl, rfl⟩ := left
  refine safe_apart_bind (State.detachMember_only trivial trivial trivial trivial trivial)
    fun roomEmpty => ?_
  refine safe_apart_bind (State.detachFromSfu_only fun _ => trivial) fun _ => ?_
  have closes : (State.closeIfEmpty roomId roomEmpty).Only Apart := by
    cases roomEmpty with
    | false => trivial
    | true => exact Only.bind closeRoomBinding_apart fun _ => trivial
  refine (safe_of_apart closes).mono ?_
  intro last _ same
  rw [same]
  exact announce_safe own

/-- Whoever asks to join is in the end neither joining nor leaving. -/
theorem handleJoinLocked_safe (own : state.node = node) :
    (outline named node room).Safe (fun last _ => last.stage.active = false) ⟨connection, .idle⟩
      (handleJoinLocked state connection sessionId room).run := by
  have checks : (checkSession state connection sessionId).run.Only Apart :=
    checkSession_only trivial trivial trivial (fun _ _ => trivial) fun _ => trivial
  refine safe_apart_except_bind (admitJoin_only trivial checks) (fun _ => rfl) fun session => ?_
  refine safe_apart_except_bind (joinTarget_only trivial) (fun _ => rfl) fun sfuAddr => ?_
  refine Outline.Safe.except_bind (enterRoom_safe.mono ?_)
  intro last result entered
  cases result with
  | error error =>
      rw [entered]
      rfl
  | ok participants =>
      obtain ⟨named, members, rfl, rfl⟩ := entered
      rw [named]
      refine Outline.Safe.except_bind (recordRoom_safe.mono ?_)
      intro last recorded ended
      obtain ⟨rfl, rfl⟩ := ended
      refine Outline.Safe.except_bind (sendJoined_safe.mono ?_)
      intro last sent ended
      obtain ⟨rfl, rfl⟩ := ended
      refine Outline.Safe.except_bind (Outline.Safe.lift ((register_safe own).mono ?_))
      intro last _ same
      rw [same]
      refine Outline.Safe.lift ((announce_safe own).mono ?_)
      intro last _ told
      rw [told]
      rfl

/-- Nor is whoever asks to leave. -/
theorem leaveRoomOf_safe (own : state.node = node) (participants : Option (List String))
    (reason : String) : (outline named node room).Safe
      (fun last _ => last.stage.active = false) ⟨connection, .idle⟩
      (leaveRoomOf state connection sessionId roomId nickname participants reason).run := by
  refine safe_apart_except_bind (requireRedis_only trivial) (fun _ => rfl) fun _ => ?_
  refine Outline.Safe.except_bind (Outline.Safe.lift ((leaveRoomAndNotify_safe own reason).mono ?_))
  intro last _ same
  rw [same]
  refine safe_of_inactive rfl ((Only.adapt (redisCommand_only trivial)).except_bind fun _ => ?_)
  refine (Only.lift (issue_only trivial)).except_bind fun _ => ?_
  exact Only.lift (issue_only trivial)

/-- At the end of a connection its participant leaves, and is done then. -/
theorem leaveOnDisconnect_safe (own : state.node = node) (left : Option RoomId) :
    (outline named node room).Safe (fun last _ => last.stage.active = false) ⟨connection, .idle⟩
      (leaveOnDisconnect state sessionId nickname left) := by
  cases left with
  | none => rfl
  | some roomId =>
      refine Outline.Safe.bind ((leaveRoomAndNotify_safe own _).mono ?_)
      intro last _ same
      rw [same]
      refine safe_of_inactive rfl (Only.bind (redisCommand_only trivial) fun _ => ?_)
      exact issue_only trivial

/-- Nor is one whose connection has ended. -/
theorem cleanupConnection_safe (own : state.node = node) : (outline named node room).Safe
    (fun last _ => last.stage.active = false) ⟨connection, .idle⟩
      (cleanupConnection state connection) := by
  have removes (sessionId : SessionId) : (state.removeSession sessionId).Only Apart :=
    issue_only trivial
  have notes (change : ConnectionContext → ConnectionContext) :
      (setContext connection change).Only Apart := issue_only trivial
  have recalls : (getContext connection).Only Apart := issue_only trivial
  refine safe_apart_bind (notes _) fun _ => safe_apart_bind recalls fun context => ?_
  cases context.sessionId with
  | none => rfl
  | some sessionId =>
      refine safe_apart_bind (State.isRedisAvailable_only trivial) fun available => ?_
      cases available with
      | false => exact safe_of_inactive rfl (removes sessionId)
      | true =>
          have finds : (sessionForCleanup state sessionId).Only Apart :=
            sessionForCleanup_only trivial trivial
          refine safe_apart_bind finds fun found => ?_
          cases found with
          | none => exact safe_of_inactive rfl (removes sessionId)
          | some session =>
              refine Outline.Safe.bind ((leaveOnDisconnect_safe own session.roomId).mono ?_)
              intro last _ inactive
              have uncounts : (uncountOnDisconnect state context).Only Apart := by
                unfold uncountOnDisconnect
                split
                · refine Only.bind ?_ fun _ => trivial
                  exact (redisCommand_only trivial).except_bind fun _ => redisCommand_only trivial
                · trivial
              exact safe_apart_bind uncounts fun _ => safe_of_inactive inactive (removes sessionId)

end Handlers

/-! ## Runs -/

/-- Every registered participant has its nickname, and will show exactly the registered ones. -/
structure Converged (named : ConnectionId → Nickname) (node : NodeId) (room : RoomId)
    (world : World) : Prop where
  own : ∀ nickname entry, (world.nodes node).peers.lookup (room, nickname) = some entry →
    named entry.sender = nickname
  shows : ∀ nickname entry, (world.nodes node).peers.lookup (room, nickname) = some entry →
    shown (clientRoom world entry.sender) = PeerRegistry.nicknames (world.nodes node).peers room

/-- Every message has been received. -/
def Drained (world : World) : Prop :=
  ∀ connection, (world.connections connection).queue = []

/-- **The client of every registered participant shows exactly the registered ones.** -/
def Present (node : NodeId) (room : RoomId) (world : World) : Prop :=
  ∀ nickname entry, (world.nodes node).peers.lookup (room, nickname) = some entry →
    shown (activeRoom (world.connections entry.sender).received) =
      PeerRegistry.nicknames (world.nodes node).peers room

/-- With nobody on the way, the clients agree with the registry exactly if they have converged.
-/
theorem agrees_zero {world : World} :
    Agrees named (picture node room world) 0 ↔ Converged named node room world := by
  have held {nickname : Nickname} {entry : PeerEntry}
      (found : (world.nodes node).peers.lookup (room, nickname) = some entry) :
      (picture node room world).holder nickname = some entry.sender :=
    congrArg (Option.map PeerEntry.sender) found
  constructor
  · intro agrees
    refine ⟨fun nickname entry found => agrees.own nickname _ (held found), ?_⟩
    intro nickname entry found
    ext other
    rw [← registered_iff]
    by_cases same : other = nickname
    · subst same
      refine iff_of_true (agrees.self other _ (held found)) ?_
      rw [Picture.Registered, held found]
      rfl
    · refine agrees.known nickname _ (held found) other same fun owed => ?_
      obtain ⟨phase, member, -⟩ := owed
      exact Multiset.notMem_zero _ member
  · intro converged
    have found {nickname : Nickname} {connection : ConnectionId}
        (held : (picture node room world).holder nickname = some connection) :
        ∃ entry, (world.nodes node).peers.lookup (room, nickname) = some entry ∧
          entry.sender = connection := Option.map_eq_some_iff.mp held
    have shows {nickname : Nickname} {connection : ConnectionId} (other : Nickname)
        (held : (picture node room world).holder nickname = some connection) :
        other ∈ (picture node room world).shown connection ↔
          (picture node room world).Registered other := by
      obtain ⟨entry, found, rfl⟩ := found held
      rw [registered_iff, ← converged.shows nickname entry found]
      exact Iff.rfl
    refine ⟨Multiset.nodup_zero, ?_, ?_, ?_, ?_⟩
    · intro nickname connection held
      obtain ⟨entry, found, rfl⟩ := found held
      exact converged.own nickname entry found
    · intro nickname connection held
      rw [shows nickname held, Picture.Registered, held]
      rfl
    · exact fun nickname connection held other _ _ => shows other held
    · exact fun phase member => absurd member (Multiset.notMem_zero _)

/-- What happens besides keeps the invariant. -/
theorem stable : (outline named node room).Stable where
  start := by
    intro before others phase program after started agrees
    obtain ⟨connection, stage⟩ := phase
    obtain ⟨rfl, idle, state, own, handles⟩ := started
    obtain rfl : stage = .idle := idle
    have ends : (outline named node room).Safe (fun last _ => last.stage.active = false)
        ⟨connection, .idle⟩ program := by
      cases handles with
      | join => exact Outline.Safe.bind ((handleJoinLocked_safe own).mono fun _ _ same => same)
      | leave => exact Outline.Safe.bind ((leaveRoomOf_safe own _ _).mono fun _ _ same => same)
      | cleanup => exact cleanupConnection_safe own
    refine ⟨(agrees_cons_of_inactive rfl).mpr agrees, ends.mono ?_⟩
    intro last _ inactive state others agrees
    exact (agrees_cons_of_inactive inactive).mp agrees
  discard _ _ _ never := never.elim
  environment := by
    intro before others after besides agrees
    change Agrees named (picture node room after.1) _
    rw [Besides.picture_eq besides]
    exact agrees

/-- **Whoever is in the room shows who is in the room, whenever nobody joins or leaves and every
message has been received**, in every run in which the members read are the registered
participants, but for those that have yet to be announced, in which everybody who has read the
members and waits to be registered has read them as they are announced, and in which no message
queued for a client changes what it shows on entering. -/
theorem present_of_drained {world : World} (start : Converged named node room world)
    {pool : (threads named node room).system.Pool}
    (run : Reaches (guard named node room) ⟨(world, ()), []⟩ pool) (quiescent : pool.Quiescent)
    (drained : Drained pool.state.1) : Present node room pool.state.1 := by
  have initial : (outline named node room).Holds ⟨(world, ()), []⟩ :=
    .of_quiescent (agrees_zero.mpr start)
  have converged := agrees_zero.mp ((initial.reaches stable run).quiescent quiescent)
  intro nickname entry found
  rw [← converged.shows nickname entry found, clientRoom, drained, List.append_nil]

end Participants

/-! ## Alice leaves while Bob joins -/

section Decidable

variable {named : ConnectionId → Nickname} {node : NodeId} {room : RoomId}

instance : DecidablePred Stage.Unannounced
  | .idle | .telling .. | .done => isFalse id
  | .added | .waiting _ | .greeted _ | .changed _ => isTrue trivial

instance (phases : Multiset Phase) (nickname : Nickname) :
    Decidable (Unannounced named phases nickname) := Multiset.decidableExistsMultiset

/-- The test of `Succeeds`. -/
def succeeds (world : World) : (op : Op) → op.Reply → Bool
  | .createPeer .., reply => decide (reply = .ok ⟨true, none⟩)
  | .sendMessage .., sent => sent
  | .trySend receiver _, sent => sent || !(world.connections receiver).receiving
  | _, _ => true

/-- The test computes the assumption. -/
theorem succeeds_iff {world : World} {op : Op} {reply : op.Reply} :
    succeeds world op reply = true ↔ Succeeds world op reply := by
  cases op <;> simp [succeeds, Succeeds]

instance (world : World) (op : Op) (reply : op.Reply) :
    Decidable ((threads named node room).assumed world op reply) :=
  decidable_of_iff _ succeeds_iff

/-- The test of `Proper`. -/
def isProper (named : ConnectionId → Nickname) (room : RoomId) :
    Phase → Op → Multiset Phase → Bool
  | ⟨connection, .idle⟩, .redis (.sadd _ nickname), others =>
      decide (nickname = named connection ∧ nickname ∉ busy named others)
  | ⟨connection, .idle⟩, .peers _ (.unregister roomId nickname), others => decide
      (roomId = room ∧ nickname = named connection ∧ nickname ∉ busy named others)
  | _, _, _ => true

/-- The test computes the condition on nicknames. -/
theorem isProper_iff {phase : Phase} {op : Op} {others : Multiset Phase} :
    isProper named room phase op others = true ↔ Proper named room phase op others := by
  unfold isProper Proper
  split
  · exact decide_eq_true_iff
  · exact decide_eq_true_iff
  · exact iff_of_true rfl trivial

instance : ∀ state phase op others, Decidable (proper named node room state phase op others) :=
  fun _ _ _ _ => decidable_of_iff _ isProper_iff

/-- The test of `Aware`. -/
def isAware (named : ConnectionId → Nickname) (node : NodeId) (room : RoomId) (world : World) :
    Phase → Op → Multiset Phase → Bool
  | ⟨connection, .added⟩, .redis (.smembers _), others => decide
      (∀ nickname ∈ world.redis.roomMembers room ∪
          PeerRegistry.nicknames (world.nodes node).peers room,
        nickname ≠ named connection → Unannounced named others nickname ∨
          (nickname ∈ world.redis.roomMembers room ↔
            nickname ∈ PeerRegistry.nicknames (world.nodes node).peers room))
  | ⟨connection, .changed joined⟩, .peers _ (.targets ..), others => decide
      (∀ phase ∈ others, ∀ members ∈ phase.stage.read,
        (named connection ∈ members ↔ joined = true))
  | ⟨_, .waiting _⟩, .sendMessage connection message, _ => decide
      (shown (activeRoom ((world.connections connection).received ++
          message :: (world.connections connection).queue)) =
        shown (activeRoom ((world.connections connection).received ++ [message])))
  | ⟨_, .telling ..⟩, .trySend receiver _, _ => decide
      ((world.connections receiver).receiving = true ∨
        ∀ nickname ∈ PeerRegistry.nicknames (world.nodes node).peers room,
          ∀ entry ∈ (world.nodes node).peers.lookup (room, nickname), entry.sender ≠ receiver)
  | ⟨_, .done⟩, .trySend _ (.participantLeft nickname), others => decide
      (nickname ∉ PeerRegistry.nicknames (world.nodes node).peers room ∧
        nickname ∉ busy named others)
  | ⟨_, .done⟩, .peers _ (.unregister roomId nickname), _ =>
      decide ((roomId, nickname) ∉ (world.nodes node).peers)
  | _, _, _ => true

/-- The test computes the condition on the members that are read. -/
theorem isAware_iff {world : World} {phase : Phase} {op : Op} {others : Multiset Phase} :
    isAware named node room world phase op others = true ↔
      Aware named node room world phase op others := by
  unfold isAware Aware
  split
  · exact decide_eq_true_iff
  · exact decide_eq_true_iff
  · exact decide_eq_true_iff
  · exact decide_eq_true_iff
  · exact decide_eq_true_iff
  · exact decide_eq_true_iff
  · exact iff_of_true rfl trivial

instance (world : World) (phase : Phase) (op : Op) (others : Multiset Phase) :
    Decidable (Aware named node room world phase op others) := decidable_of_iff _ isAware_iff

instance : ∀ state phase op others, Decidable (guard named node room state phase op others) :=
  fun state phase op others => decidable_of_iff
    (isProper named room phase op others = true ∧
      isAware named node room state.1 phase op others = true)
    (and_congr isProper_iff isAware_iff)

end Decidable

/-- The nicknames of two connections. -/
def nicknameOf (connection : ConnectionId) : Nickname := if connection = 0 then "alice" else "bob"

/-- A room that Alice has created and Bob may join. -/
def visited : World :=
  let world := World.fresh.assignTo "room-1"
  { world with
    redis := { world.redis with
      members := {("room-1", "alice")}
      sessions := Finmap.singleton "session-2" ⟨Hash.set none "nickname" "bob", none⟩ }
    nodes := fun _ => { (world.nodes sampleNode.node) with
      peers := Finmap.singleton ("room-1", "alice") ⟨0, some sampleSfu.grpcAddr⟩ }
    sfuPeers := {(sampleSfu.grpcAddr, "room-1", "alice")}
    connections := fun connection => if connection = 0 then
        { capacity := 256, received := [.created "room-1" "alice"] }
      else
        { capacity := 256, context :=
          { sessionId := some "session-2", allowedIntent := some "join"
            allowedRoomId := some "room-1" } } }

abbrev visiting : Threads := threads nicknameOf sampleNode.node "room-1"

/-- Alice is alone in the room and shows nobody else. -/
theorem converged_visited : Converged nicknameOf sampleNode.node "room-1" visited := by
  have alice {nickname : Nickname} {entry : PeerEntry}
      (found : (visited.nodes sampleNode.node).peers.lookup ("room-1", nickname) = some entry) :
      nickname = "alice" ∧ entry = ⟨0, some sampleSfu.grpcAddr⟩ := by
    have member := (Finmap.mem_singleton _ _ _).mp (Finmap.mem_of_lookup_eq_some found)
    obtain rfl : nickname = "alice" := congrArg Prod.snd member
    exact ⟨rfl, (Option.some.inj (Finmap.lookup_singleton_eq.symm.trans found)).symm⟩
  constructor
  · intro nickname entry found
    obtain ⟨rfl, rfl⟩ := alice found
    rfl
  · intro nickname entry found
    obtain ⟨rfl, rfl⟩ := alice found
    decide

/-- Every queue is drained. -/
def drain (world : World) : World :=
  { world with connections := fun connection =>
      { world.connections connection with
        received :=
          (world.connections connection).received ++ (world.connections connection).queue
        queue := [] } }

/-- After a drain every message has been received. -/
theorem drained_drain (world : World) : Drained (drain world) := fun _ => rfl

/-- A drain happens besides. -/
theorem besides_drain {node : NodeId} {room : RoomId} (world : World) :
    Besides node room world (drain world) where
  registry _ := rfl
  clients _ := congrArg activeRoom (List.append_nil _)

/-- Whatever has been reached, the queues may be drained next. -/
theorem reaches_drain {guard : visiting.system.Guard} {start pool : visiting.system.Pool}
    (run : Reaches guard start pool) :
    Reaches guard start ⟨(drain pool.state.1, pool.state.2), pool.threads⟩ :=
  .tail run (.environment (besides_drain _))

/-- Bob joins. -/
def joining : visiting.system.Thread :=
  ⟨⟨1, .idle⟩, ignoring (handleJoinLocked sampleNode 1 "session-2" "room-1")⟩

/-- Alice leaves. -/
def leaving : visiting.system.Thread :=
  ⟨⟨0, .idle⟩, ignoring
    (leaveRoomOf sampleNode 0 "session-1" "room-1" "alice" none "user_left")⟩

/-- Bob may ask to join. -/
theorem reaches_joining {guard : visiting.system.Guard} :
    Reaches guard ⟨(visited, ()), []⟩ ⟨(visited, ()), [joining]⟩ :=
  .tail .refl (.start ⟨rfl, rfl, sampleNode, rfl, .join "session-2"⟩)

/-- Alice may leave meanwhile. -/
theorem reaches_leaving {guard : visiting.system.Guard} :
    Reaches guard ⟨(visited, ()), []⟩ ⟨(visited, ()), [leaving, joining]⟩ :=
  .tail reaches_joining (.start ⟨rfl, rfl, sampleNode, rfl, .leave "session-1" none "user_left"⟩)

/-- Bob reads the members. -/
def reading (position : ℕ) : List (ℕ × Hint) :=
  turns position 10 ++ [(position, { names := ["alice", "bob"] })]

/-- Bob joins Alice, and both show both. -/
theorem present_of_drained_joining : ∃ pool : visiting.system.Pool,
    Reaches (guard nicknameOf sampleNode.node "room-1") ⟨(visited, ()), []⟩ pool ∧
      pool.Quiescent ∧ Drained pool.state.1 ∧
      PeerRegistry.nicknames (pool.state.1.nodes sampleNode.node).peers "room-1" =
        {"alice", "bob"} ∧ Present sampleNode.node "room-1" pool.state.1 := by
  have replayed : (visiting.sampler.replay (guard nicknameOf sampleNode.node "room-1")
      (reading 0 ++ turns 0 6 ++ (0, { names := ["alice"] }) :: turns 0 2)
      ⟨(visited, ()), [joining]⟩).any (fun pool => pool.threads.isEmpty ∧
        PeerRegistry.nicknames (pool.state.1.nodes sampleNode.node).peers "room-1" =
          {"alice", "bob"}) = true := by
    decide +kernel
  obtain ⟨pool, run, passed⟩ := Sampler.exists_of_replay replayed
  obtain ⟨quiescent, registered⟩ := of_decide_eq_true passed
  have quiescent : pool.threads = [] := List.isEmpty_iff.mp quiescent
  have run := reaches_drain (reaches_joining.trans run)
  exact ⟨_, run, quiescent, drained_drain _, registered,
    present_of_drained converged_visited run quiescent (drained_drain _)⟩

/-- **Bob shows Alice, who has left**: she leaves after he has read the members, and before he is
registered. -/
theorem shown_gone : Converged nicknameOf sampleNode.node "room-1" visited ∧
    ∃ pool : visiting.system.Pool,
      Reaches (proper nicknameOf sampleNode.node "room-1") ⟨(visited, ()), []⟩ pool ∧
        pool.Quiescent ∧ Drained pool.state.1 ∧
        ¬ Present sampleNode.node "room-1" pool.state.1 := by
  refine ⟨converged_visited, ?_⟩
  have replayed : (visiting.sampler.replay (proper nicknameOf sampleNode.node "room-1")
      (reading 1 ++ turns 0 22) ⟨(visited, ()), [leaving, joining]⟩).any (fun pool =>
        pool.threads.isEmpty ∧
        (pool.state.1.nodes sampleNode.node).peers.lookup ("room-1", "bob") =
          some ⟨1, some sampleSfu.grpcAddr⟩ ∧
        "alice" ∈ shown (clientRoom pool.state.1 1) ∧
        "alice" ∉ PeerRegistry.nicknames (pool.state.1.nodes sampleNode.node).peers "room-1") =
          true := by
    decide +kernel
  obtain ⟨pool, run, passed⟩ := Sampler.exists_of_replay replayed
  obtain ⟨quiescent, registered, seen, gone⟩ := of_decide_eq_true passed
  have run := reaches_drain (reaches_leaving.trans run)
  refine ⟨_, run, List.isEmpty_iff.mp quiescent, drained_drain _, ?_⟩
  intro present
  have same : shown (clientRoom pool.state.1 1) = _ := present "bob" _ registered
  rw [same] at seen
  exact gone seen

end Callifornia.Presence
