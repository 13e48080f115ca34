import Callifornia.Store.FiniteMap
import Mathlib.Data.Finset.Image
import Mathlib.Logic.Function.Basic

/-! # The Redis store shared by the services

The keys the services use, grouped by what they hold: the hash `room:*:binding`,
the set `signaling:room:*:members`, the hash `signaling:session:*`, the sorted
sets `sfu:room_load`, `signaling:instance_load` and `signaling:nodes`, the hash
`sfu:instances` of serialized SFU records, and the plain strings (nickname
reservations, session locks, consumed token ids). One command is one atomic step.
-/

namespace Callifornia

open FiniteMap

abbrev RoomId := String
abbrev Nickname := String
abbrev SessionId := String

/-- The id of an SFU instance. -/
abbrev InstanceId := String

/-- The id of a signaling node, `host:port`. -/
abbrev NodeId := String

/-- A gRPC address. -/
abbrev Address := String

namespace Store

/-- A Redis hash. A hash without fields does not exist. -/
structure Hash where
  fields : Map String String
  nonempty : fields ≠ ∅
  deriving DecidableEq

namespace Hash

/-- A hash is its fields. -/
@[ext] theorem ext {left right : Hash} (fields : left.fields = right.fields) : left = right := by
  cases left
  cases right
  cases fields
  rfl

/-- The value of a field. -/
def get (hash : Hash) (field : String) : Option String := hash.fields.lookup field

/-- `HSET` on a hash that may not exist. -/
def set (hash : Option Hash) (field value : String) : Hash where
  fields := ((hash.map Hash.fields).getD ∅).insert field value
  nonempty := insert_ne_empty _ _ _

/-- A field after a write. -/
theorem get_set (hash : Option Hash) (field query value : String) :
    (set hash field value).get query =
      if query = field then some value else hash.bind (·.get query) := by
  unfold set get
  rw [lookup_insert_if]
  cases hash with
  | none => simp only [Option.map_none, Option.getD_none, Finmap.lookup_empty, Option.bind_none]
  | some hash => rfl

end Hash

/-- A serialized SFU record of `sfu:instances`. -/
structure SfuInstance where
  instanceId : InstanceId
  grpcAddr : Address
  maxRooms : ℕ
  alive : Bool
  state : String
  lastPingUnix : ℤ
  idleSinceUnix : ℤ
  deriving DecidableEq

/-- The sorted sets. -/
inductive SortedSet
  | roomLoad
  | instanceLoad
  | signalingNodes
  deriving DecidableEq

/-- The hashes addressed by a room or a session. -/
inductive HashKey
  | binding (roomId : RoomId)
  | session (sessionId : SessionId)
  deriving DecidableEq

/-- The plain string keys. -/
inductive StringKey
  | nick (nickname : Nickname)
  | sessionLock (sessionId : SessionId)
  | jti (jti : String)
  deriving DecidableEq

/-- A plain string with the time in milliseconds after which it is gone. -/
structure StringValue where
  value : String
  deadline : Option ℕ
  deriving DecidableEq

/-- The hash of a session with the time in milliseconds after which it is gone. -/
structure SessionHash where
  hash : Hash
  deadline : Option ℕ
  deriving DecidableEq

/-- The contents of the store. A set or sorted set without elements does not
exist, so sets are relations between keys and elements. -/
structure Redis where
  bindings : Map RoomId Hash
  members : Finset (RoomId × Nickname)
  sessions : Map SessionId SessionHash
  scores : SortedSet → Map String ℤ
  instances : Map InstanceId SfuInstance
  strings : Map StringKey StringValue

/-- Key patterns enumerated by `SCAN`. -/
inductive ScanPattern
  | bindings
  | members
  | sessions
  deriving DecidableEq

/-- A `SCAN` cursor: `none` starts an iteration, and a later cursor names the keys
still owed to it, those present since it started and not yet returned. -/
abbrev Cursor := Option (Finset String)

/-- The Redis commands the services issue. -/
inductive Command
  | ping
  | exists (key : HashKey)
  | hget (key : HashKey) (field : String)
  | hgetall (key : HashKey)
  | hset (key : HashKey) (field value : String)
  | del (key : HashKey)
  | expire (sessionId : SessionId) (seconds : ℕ)
  | sismember (roomId : RoomId) (nickname : Nickname)
  | sadd (roomId : RoomId) (nickname : Nickname)
  | srem (roomId : RoomId) (nickname : Nickname)
  | scard (roomId : RoomId)
  | smembers (roomId : RoomId)
  | delMembers (roomId : RoomId)
  | zscore (set : SortedSet) (member : String)
  | zadd (set : SortedSet) (member : String) (score : ℤ)
  | zincr (set : SortedSet) (member : String) (delta : ℤ)
  | zrem (set : SortedSet) (member : String)
  | zrangeWithScores (set : SortedSet)
  | zrangeByScore (set : SortedSet) (min : ℤ)
  | zremrangeByScore (set : SortedSet) (max : ℤ)
  | setNx (key : StringKey) (value : String) (expiryMs : Option ℕ)
  | get (key : StringKey)
  | compareAndDel (key : StringKey) (value : String)
  | hgetInstance (instanceId : InstanceId)
  | hsetInstance (instanceId : InstanceId) (payload : SfuInstance)
  | hgetallInstances
  | assignRoomToSfu (roomId : RoomId) (ownerHost ownerPort ownerId : String)
      (now staleAfter : ℤ)
  | scan (pattern : ScanPattern) (cursor : Cursor)

/-- What a command replies when it succeeds. -/
@[reducible] def Command.Reply : Command → Type
  | .ping | .hset .. | .sadd .. | .zadd .. | .zincr .. | .zrem .. | .zremrangeByScore ..
  | .hsetInstance .. => Unit
  | .exists _ | .expire .. | .sismember .. | .setNx .. => Bool
  | .hget .. | .get _ => Option String
  | .hgetall _ => Map String String
  | .del _ | .srem .. | .scard _ | .delMembers _ | .compareAndDel .. => ℕ
  | .smembers _ | .zrangeByScore .. | .assignRoomToSfu .. => List String
  | .zscore .. => Option ℤ
  | .zrangeWithScores _ => List (String × ℤ)
  | .hgetInstance _ => Option SfuInstance
  | .hgetallInstances => List SfuInstance
  | .scan .. => List String × Cursor

namespace Redis

/-- A store without keys. -/
def empty : Redis := ⟨∅, ∅, ∅, fun _ => ∅, ∅, ∅⟩

variable (store : Redis)

/-- The hash under a key, when it exists. -/
def hash : HashKey → Option Hash
  | .binding roomId => store.bindings.lookup roomId
  | .session sessionId => (store.sessions.lookup sessionId).map SessionHash.hash

/-- `HSET` of one field; a session keeps its deadline. -/
def hset : HashKey → String → String → Redis
  | .binding roomId, field, value =>
      { store with
        bindings := store.bindings.insert roomId
          (Hash.set (store.bindings.lookup roomId) field value) }
  | .session sessionId, field, value =>
      { store with
        sessions := store.sessions.insert sessionId
          ⟨Hash.set ((store.sessions.lookup sessionId).map SessionHash.hash) field value,
            (store.sessions.lookup sessionId).bind SessionHash.deadline⟩ }

/-- `DEL` of a hash. -/
def delHash : HashKey → Redis
  | .binding roomId => { store with bindings := store.bindings.erase roomId }
  | .session sessionId => { store with sessions := store.sessions.erase sessionId }

/-- The members of a room. -/
def roomMembers (roomId : RoomId) : Finset Nickname :=
  (store.members.filter (·.1 = roomId)).image Prod.snd

/-- The members of a room are the pairs that name it. -/
@[simp] theorem mem_roomMembers {roomId : RoomId} {nickname : Nickname} :
    nickname ∈ store.roomMembers roomId ↔ (roomId, nickname) ∈ store.members := by
  simp only [roomMembers, Finset.mem_image, Finset.mem_filter, Prod.exists, exists_eq_right]

/-- The score of a sorted-set member; the code counts a missing one as zero. -/
def score (set : SortedSet) (member : String) : ℤ := ((store.scores set).lookup member).getD 0

/-- Replace one sorted set. -/
def setScores (set : SortedSet) (scores : Map String ℤ) : Redis :=
  { store with scores := Function.update store.scores set scores }

/-- The scores of a set just written. -/
@[simp] theorem scores_setScores (set : SortedSet) (scores : Map String ℤ) :
    (store.setScores set scores).scores set = scores :=
  Function.update_self ..

/-- Writing the scores a set has changes nothing. -/
@[simp] theorem setScores_self (set : SortedSet) :
    store.setScores set (store.scores set) = store :=
  congrArg (fun scores => { store with scores }) (Function.update_eq_self ..)

/-- `ZADD`. -/
def zadd (set : SortedSet) (member : String) (score : ℤ) : Redis :=
  store.setScores set ((store.scores set).insert member score)

/-- A score after a write. -/
theorem score_zadd (set : SortedSet) (member query : String) (score : ℤ) :
    (store.zadd set member score).score set query =
      if query = member then score else store.score set query := by
  simp only [zadd, setScores, Redis.score, Function.update_self, lookup_insert_if]
  split <;> rfl

/-- The keys a `SCAN` pattern matches. -/
def keys : ScanPattern → Finset String
  | .bindings => store.bindings.keys
  | .members => store.members.image Prod.fst
  | .sessions => store.sessions.keys

/-- Drop the keys whose deadline has passed. -/
def expireUntil (now : ℕ) : Redis :=
  { store with
    sessions := FiniteMap.filter (fun _ session => ∀ deadline ∈ session.deadline, now ≤ deadline)
      store.sessions
    strings := FiniteMap.filter (fun _ string => ∀ deadline ∈ string.deadline, now ≤ deadline)
      store.strings }

/-! ## The room assignment script -/

/-- The instance is ready, fresh and below its capacity. -/
def Eligible (now staleAfter : ℤ) (record : SfuInstance) : Prop :=
  record.alive = true ∧ record.state = "ready" ∧ now - record.lastPingUnix ≤ staleAfter ∧
    store.score .roomLoad record.instanceId < record.maxRooms

instance (now staleAfter : ℤ) (record : SfuInstance) :
    Decidable (store.Eligible now staleAfter record) :=
  inferInstanceAs (Decidable (_ ∧ _ ∧ _ ∧ _))

/-- One iteration of the script's loop over the records. -/
def betterInstance (now staleAfter : ℤ) (best : Option SfuInstance) (record : SfuInstance) :
    Option SfuInstance :=
  if store.Eligible now staleAfter record ∧
      ∀ other ∈ best, store.score .roomLoad record.instanceId <
        store.score .roomLoad other.instanceId then
    some record
  else best

/-- The record the script chooses when it meets them in this order. -/
def bestInstance (now staleAfter : ℤ) (records : List SfuInstance) : Option SfuInstance :=
  records.foldl (store.betterInstance now staleAfter) none

/-- No instance is chosen when none is eligible. -/
theorem foldl_betterInstance_eq_none {clock staleAfter : ℤ} {records : List SfuInstance}
    {best : Option SfuInstance} :
    records.foldl (store.betterInstance clock staleAfter) best = none ↔
      best = none ∧ ∀ record ∈ records, ¬ store.Eligible clock staleAfter record := by
  induction records generalizing best with
  | nil => simp
  | cons record records ih =>
      rw [List.foldl_cons, ih, List.forall_mem_cons, ← and_assoc]
      refine and_congr_left fun _ => ?_
      unfold betterInstance
      cases best with
      | none => simp
      | some best => split <;> simp

/-- The script finds no instance exactly when none is eligible. -/
theorem bestInstance_eq_none {clock staleAfter : ℤ} {records : List SfuInstance} :
    store.bestInstance clock staleAfter records = none ↔
      ∀ record ∈ records, ¬ store.Eligible clock staleAfter record :=
  (store.foldl_betterInstance_eq_none).trans (and_iff_right rfl)

/-- The instance chosen is one of the records. -/
theorem foldl_betterInstance_mem {clock staleAfter : ℤ} {records : List SfuInstance}
    {best : Option SfuInstance} {chosen : SfuInstance}
    (found : records.foldl (store.betterInstance clock staleAfter) best = some chosen) :
    chosen ∈ records ∨ best = some chosen := by
  induction records generalizing best with
  | nil => exact .inr found
  | cons record records ih =>
      rcases ih found with member | same
      · exact .inl (List.mem_cons_of_mem _ member)
      · unfold betterInstance at same
        split at same
        · exact .inl (Option.some.inj same ▸ List.mem_cons_self)
        · exact .inr same

/-- The script chooses one of the records. -/
theorem bestInstance_mem {clock staleAfter : ℤ} {records : List SfuInstance} {best : SfuInstance}
    (found : store.bestInstance clock staleAfter records = some best) : best ∈ records :=
  (store.foldl_betterInstance_mem found).resolve_right nofun

/-- The binding hash the script writes. -/
def newBinding (ownerHost ownerPort ownerId : String) (best : SfuInstance) : Hash :=
  Hash.set (some (Hash.set (some (Hash.set (some (Hash.set (some (Hash.set (some (Hash.set none
    "owner_host" ownerHost)) "owner_port" ownerPort)) "signaling_owner_id" ownerId))
    "room_state" "active")) "sfu_instance_id" best.instanceId)) "sfu_grpc_addr" best.grpcAddr

/-- The fields of a new binding. -/
theorem get_newBinding (ownerHost ownerPort ownerId field : String) (best : SfuInstance) :
    (newBinding ownerHost ownerPort ownerId best).get field =
      if field = "sfu_grpc_addr" then some best.grpcAddr
      else if field = "sfu_instance_id" then some best.instanceId
      else if field = "room_state" then some "active"
      else if field = "signaling_owner_id" then some ownerId
      else if field = "owner_port" then some ownerPort
      else if field = "owner_host" then some ownerHost
      else none := by
  simp only [newBinding, Hash.get_set, Option.bind_some, Option.bind_none]

/-- Bind a room to an instance and count it. -/
def assign (roomId : RoomId) (ownerHost ownerPort ownerId : String) (best : SfuInstance) : Redis :=
  { store with
    bindings := store.bindings.insert roomId (newBinding ownerHost ownerPort ownerId best)
    scores := (store.zadd .roomLoad best.instanceId
      (store.score .roomLoad best.instanceId + 1)).scores
    instances := store.instances.insert best.instanceId { best with idleSinceUnix := 0 } }

/-- `ASSIGN_ROOM_TO_SFU_LUA`, for one order in which `HGETALL` lists the records. -/
def assignRoomToSfu (roomId : RoomId) (ownerHost ownerPort ownerId : String)
    (now staleAfter : ℤ) (records : List SfuInstance) : List String × Redis :=
  match store.bestInstance now staleAfter records with
  | none => ([], store)
  | some best =>
      if (store.bindings.lookup roomId).isSome then (["__ROOM_EXISTS__", ""], store)
      else ([best.instanceId, best.grpcAddr],
        store.assign roomId ownerHost ownerPort ownerId best)

/-! ## Commands -/

/-- The records of `sfu:instances` in some order. -/
def Lists (records : List SfuInstance) : Prop :=
  (records : Multiset SfuInstance) = store.instances.entries.map Sigma.snd

/-- The records are those of the instances. -/
theorem Lists.mem_iff {records : List SfuInstance} (lists : store.Lists records)
    {record : SfuInstance} :
    record ∈ records ↔ ∃ instanceId, store.instances.lookup instanceId = some record := by
  rw [← Multiset.mem_coe, show (records : Multiset SfuInstance) = _ from lists, Multiset.mem_map]
  constructor
  · intro ⟨⟨instanceId, _⟩, member, same⟩
    exact ⟨instanceId, same ▸ Finmap.mem_lookup_iff.mpr member⟩
  · intro ⟨instanceId, found⟩
    exact ⟨⟨instanceId, record⟩, Finmap.mem_lookup_iff.mp found, rfl⟩

/-- One page of a `SCAN` iteration. -/
def Scans (pattern : ScanPattern) (cursor : Cursor) (page : List String) (next : Cursor) : Prop :=
  (∀ key ∈ page, key ∈ store.keys pattern) ∧
    let owed := (cursor.map (· ∩ store.keys pattern)).getD (store.keys pattern) \ page.toFinset
    match next with
    | none => owed = ∅
    | some rest => rest = owed

/-- The effect of one command at a time in milliseconds. The order of an unordered
reply is not fixed. -/
def exec (now : ℕ) : (command : Command) → Redis → command.Reply → Redis → Prop
  | .ping, store, _, after => after = store
  | .exists key, store, reply, after => reply = (store.hash key).isSome ∧ after = store
  | .hget key field, store, reply, after =>
      reply = (store.hash key).bind (·.get field) ∧ after = store
  | .hgetall key, store, reply, after =>
      reply = ((store.hash key).map Hash.fields).getD ∅ ∧ after = store
  | .hset key field value, store, _, after => after = store.hset key field value
  | .del key, store, reply, after =>
      reply = (if (store.hash key).isSome then 1 else 0) ∧ after = store.delHash key
  | .expire sessionId seconds, store, reply, after =>
      reply = (store.sessions.lookup sessionId).isSome ∧
        after = { store with
          sessions := adjust store.sessions sessionId fun session =>
            { session with deadline := some (now + seconds * 1000) } }
  | .sismember roomId nickname, store, reply, after =>
      reply = decide ((roomId, nickname) ∈ store.members) ∧ after = store
  | .sadd roomId nickname, store, _, after =>
      after = { store with members := insert (roomId, nickname) store.members }
  | .srem roomId nickname, store, reply, after =>
      reply = (if (roomId, nickname) ∈ store.members then 1 else 0) ∧
        after = { store with members := store.members.erase (roomId, nickname) }
  | .scard roomId, store, reply, after =>
      reply = (store.roomMembers roomId).card ∧ after = store
  | .smembers roomId, store, reply, after =>
      Enumerates reply (store.roomMembers roomId) ∧ after = store
  | .delMembers roomId, store, reply, after =>
      reply = (if (store.roomMembers roomId).Nonempty then 1 else 0) ∧
        after = { store with members := store.members.filter (·.1 ≠ roomId) }
  | .zscore set member, store, reply, after =>
      reply = (store.scores set).lookup member ∧ after = store
  | .zadd set member score, store, _, after => after = store.zadd set member score
  | .zincr set member delta, store, _, after =>
      after = store.zadd set member (store.score set member + delta)
  | .zrem set member, store, _, after =>
      after = store.setScores set ((store.scores set).erase member)
  | .zrangeWithScores set, store, reply, after =>
      ((reply : Multiset (String × ℤ)) =
        (store.scores set).entries.map fun entry => (entry.1, entry.2)) ∧ after = store
  | .zrangeByScore set min, store, reply, after =>
      Enumerates reply (FiniteMap.filter (fun _ score => min ≤ score) (store.scores set)).keys ∧
        after = store
  | .zremrangeByScore set max, store, _, after =>
      after = store.setScores set
        (FiniteMap.filter (fun _ score => max < score) (store.scores set))
  | .setNx key value expiryMs, store, reply, after =>
      reply = (store.strings.lookup key).isNone ∧
        after = if (store.strings.lookup key).isNone then
          { store with
            strings := store.strings.insert key ⟨value, expiryMs.map (now + ·)⟩ }
        else store
  | .get key, store, reply, after =>
      reply = (store.strings.lookup key).map StringValue.value ∧ after = store
  | .compareAndDel key value, store, reply, after =>
      if (store.strings.lookup key).map StringValue.value = some value then
        reply = 1 ∧ after = { store with strings := store.strings.erase key }
      else reply = 0 ∧ after = store
  | .hgetInstance instanceId, store, reply, after =>
      reply = store.instances.lookup instanceId ∧ after = store
  | .hsetInstance instanceId payload, store, _, after =>
      after = { store with instances := store.instances.insert instanceId payload }
  | .hgetallInstances, store, reply, after => store.Lists reply ∧ after = store
  | .assignRoomToSfu roomId ownerHost ownerPort ownerId clock staleAfter, store, reply, after =>
      ∃ records, store.Lists records ∧
        (reply, after) =
          store.assignRoomToSfu roomId ownerHost ownerPort ownerId clock staleAfter records
  | .scan pattern cursor, store, reply, after =>
      store.Scans pattern cursor reply.1 reply.2 ∧ after = store

end Redis

end Store

end Callifornia
