import Callifornia.Signaling.Message

/-! # The peers registered on a signaling node

Every registered peer can be sent messages through the outbound channel of its
connection. A room without peers is dropped from the registry, so the registry
is a finite map from a room and a nickname to a peer.
-/

namespace Callifornia.Signaling

open FiniteMap Store

/-- The connection whose outbound channel a sender feeds. -/
abbrev ConnectionId := ℕ

structure PeerEntry where
  sender : ConnectionId
  sfuAddr : Option Address
  deriving DecidableEq

abbrev PeerRegistry := Map (RoomId × Nickname) PeerEntry

namespace PeerRegistry

/-- One critical section of the registry's lock. -/
inductive Command
  | register (roomId : RoomId) (nickname : Nickname) (entry : PeerEntry)
  | unregister (roomId : RoomId) (nickname : Nickname)
  | sender (roomId : RoomId) (nickname : Nickname)
  | targets (roomId : RoomId) (exceptNickname : Option Nickname)
  | snapshotRooms
  | snapshotRoomsWithSfu
  | clear

@[reducible] def Command.Reply : Command → Type
  | .register .. | .unregister .. | .clear => Unit
  | .sender .. => Option ConnectionId
  | .targets .. => List (Nickname × ConnectionId)
  | .snapshotRooms => List (RoomId × List Nickname)
  | .snapshotRoomsWithSfu => List (RoomId × List (Nickname × Option Address))

variable (peers : PeerRegistry)

/-- The registered nicknames of a room. -/
def nicknames (roomId : RoomId) : Finset Nickname :=
  (peers.keys.filter (·.1 = roomId)).image Prod.snd

@[simp] theorem mem_nicknames {roomId : RoomId} {nickname : Nickname} :
    nickname ∈ nicknames peers roomId ↔ (roomId, nickname) ∈ peers := by
  simp only [nicknames, Finset.mem_image, Finset.mem_filter, Finmap.mem_keys, Prod.exists,
    exists_eq_right]

/-- The receivers of a broadcast, each once. -/
def Targets (roomId : RoomId) (exceptNickname : Option Nickname)
    (targets : List (Nickname × ConnectionId)) : Prop :=
  (targets.map Prod.fst).Nodup ∧ ∀ nickname sender,
    (nickname, sender) ∈ targets ↔ exceptNickname ≠ some nickname ∧
      ∃ entry, peers.lookup (roomId, nickname) = some entry ∧ entry.sender = sender

/-- The rooms that have peers, each once with all its nicknames. -/
def Snapshot (rooms : List (RoomId × List Nickname)) : Prop :=
  (rooms.map Prod.fst).Nodup ∧
    (∀ roomId, roomId ∈ rooms.map Prod.fst ↔ (nicknames peers roomId).Nonempty) ∧
    ∀ room ∈ rooms, Enumerates room.2 (nicknames peers room.1)

/-- The rooms with their peers and the SFU address each peer is registered with. -/
def SnapshotWithSfu (rooms : List (RoomId × List (Nickname × Option Address))) : Prop :=
  (rooms.map Prod.fst).Nodup ∧
    (∀ roomId, roomId ∈ rooms.map Prod.fst ↔ (nicknames peers roomId).Nonempty) ∧
    ∀ room ∈ rooms, (room.2.map Prod.fst).Nodup ∧ ∀ nickname sfuAddr,
      (nickname, sfuAddr) ∈ room.2 ↔
        ∃ entry, peers.lookup (room.1, nickname) = some entry ∧ entry.sfuAddr = sfuAddr

/-- The effect of one critical section. -/
def exec : (command : Command) → PeerRegistry → command.Reply → PeerRegistry → Prop
  | .register roomId nickname entry, peers, _, after =>
      after = peers.insert (roomId, nickname) entry
  | .unregister roomId nickname, peers, _, after => after = peers.erase (roomId, nickname)
  | .sender roomId nickname, peers, reply, after =>
      reply = (peers.lookup (roomId, nickname)).map PeerEntry.sender ∧ after = peers
  | .targets roomId exceptNickname, peers, reply, after =>
      Targets peers roomId exceptNickname reply ∧ after = peers
  | .snapshotRooms, peers, reply, after => Snapshot peers reply ∧ after = peers
  | .snapshotRoomsWithSfu, peers, reply, after => SnapshotWithSfu peers reply ∧ after = peers
  | .clear, _, _, after => after = ∅

end PeerRegistry

end Callifornia.Signaling
