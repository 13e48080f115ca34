import Callifornia.Store.Keys

/-! # The commands as the services send them

Each operation on the typed store is a command, or a Lua script, on keys and values that are
texts. SFU records are serialized, by the services and by the script each in its own way.
-/

namespace Callifornia.Store

open FiniteMap Keyspace

/-- The numbers of a record are short enough for `cjson`, which keeps fourteen digits. -/
def SfuInstance.Exact (record : SfuInstance) : Prop :=
  record.maxRooms < 10 ^ 14 ∧ record.lastPingUnix.natAbs < 10 ^ 14 ∧
    record.idleSinceUnix.natAbs < 10 ^ 14

instance (record : SfuInstance) : Decidable record.Exact :=
  inferInstanceAs (Decidable (_ ∧ _ ∧ _))

/-- The record of an instance that is not idle keeps its round trip. -/
theorem SfuInstance.Exact.busy {record : SfuInstance} (exact : record.Exact) :
    SfuInstance.Exact { record with idleSinceUnix := 0 } :=
  ⟨exact.1, exact.2.1, Nat.pow_pos (by decide)⟩

/-- How SFU records are written, by the services and by the script, and read. -/
structure Payloads where
  decode : String → Option SfuInstance
  /-- `serde_json::to_string`. -/
  encode : SfuInstance → String
  /-- `cjson.encode`. -/
  reencode : SfuInstance → String
  decode_encode : ∀ record : SfuInstance, record.Exact → decode (encode record) = some record
  decode_reencode : ∀ record : SfuInstance, record.Exact → decode (reencode record) = some record

/-- A serialized record. -/
def Payloads.read (payloads : Payloads) (payload : String) : Script SfuInstance :=
  match payloads.decode payload with
  | some record => pure record
  | none => throw .undecodable

/-- Reading a payload that decodes does nothing but return the record. -/
theorem Payloads.read_eq {payloads : Payloads} {payload : String} {record : SfuInstance}
    (decoded : payloads.decode payload = some record) : payloads.read payload = pure record := by
  rw [read, decoded]

/-! ## Scripts -/

/-- `COMPARE_AND_DEL_LUA`. -/
def compareAndDelLua (key value : String) : Script ℕ := do
  if (← call (.get key)) = some value then call (.del key) else return 0

/-- One iteration of the loop of `ASSIGN_ROOM_TO_SFU_LUA`: the best instance with its load. -/
def betterLoad (now staleAfter : ℤ) (best : Option (SfuInstance × ℤ)) (record : SfuInstance)
    (load : ℤ) : Option (SfuInstance × ℤ) :=
  if record.alive = true ∧ record.state = "ready" ∧ now - record.lastPingUnix ≤ staleAfter ∧
      load < record.maxRooms ∧ ∀ other ∈ best, load < other.2 then some (record, load)
  else best

def bestLoad (payloads : Payloads) (now staleAfter : ℤ) :
    Option (SfuInstance × ℤ) → List (String × String) → Script (Option (SfuInstance × ℤ))
  | best, [] => return best
  | best, (_, payload) :: instances => do
      let record ← payloads.read payload
      let load ← call (.zscore sfuRoomLoadKey record.instanceId)
      bestLoad payloads now staleAfter (betterLoad now staleAfter best record (load.getD 0))
        instances

/-- What `ASSIGN_ROOM_TO_SFU_LUA` does with the best instance. -/
def bindToBest (payloads : Payloads) (bindingKey ownerHost ownerPort ownerId : String) :
    Option (SfuInstance × ℤ) → Script (List String)
  | none => return []
  | some (best, _) => do
      if ← call (.exists bindingKey) then return ["__ROOM_EXISTS__", ""]
      else do
        call (.hset bindingKey
          [("owner_host", ownerHost), ("owner_port", ownerPort),
            ("signaling_owner_id", ownerId), ("room_state", "active"),
            ("sfu_instance_id", best.instanceId), ("sfu_grpc_addr", best.grpcAddr)])
        call (.zincrby sfuRoomLoadKey best.instanceId 1)
        call (.hset sfuInstancesKey
          [(best.instanceId, payloads.reencode { best with idleSinceUnix := 0 })])
        return [best.instanceId, best.grpcAddr]

/-- `ASSIGN_ROOM_TO_SFU_LUA`. -/
def assignRoomToSfuLua (payloads : Payloads) (bindingKey ownerHost ownerPort ownerId : String)
    (now staleAfter : ℤ) : Script (List String) := do
  let instances ← call (.hgetall sfuInstancesKey)
  let best ← bestLoad payloads now staleAfter none instances
  bindToBest payloads bindingKey ownerHost ownerPort ownerId best

/-! ## Scans -/

def ScanPattern.pattern : ScanPattern → Pattern
  | .bindings => ⟨roomBindingPrefix, ":binding"⟩
  | .members => ⟨signalingRoomPrefix, ":members"⟩
  | .sessions => ⟨signalingSessionPrefix, ""⟩

/-- The id in a key that a scan returns; locks are skipped. -/
def ScanPattern.parse : ScanPattern → String → Option String
  | .bindings, key => (stripPrefix roomBindingPrefix key).bind (stripSuffix ":binding")
  | .members, key => (stripPrefix signalingRoomPrefix key).bind (stripSuffix ":members")
  | .sessions, key =>
      if (stripSuffix ":lock" key).isSome then none else stripPrefix signalingSessionPrefix key

/-- The key of an id that a scan looks for. -/
def ScanPattern.key : ScanPattern → String → Key
  | .bindings, roomId => .hash (.binding roomId)
  | .members, roomId => .members roomId
  | .sessions, sessionId => .hash (.session sessionId)

/-- A key that a scan looks for matches its pattern. -/
theorem ScanPattern.star_key (pattern : ScanPattern) (id : String) :
    pattern.pattern.star (pattern.key id).text = some id := by
  rw [Pattern.star_eq_some]
  cases pattern with
  | bindings => rfl
  | members => rfl
  | sessions => exact congrArg (signalingSessionPrefix ++ ·) String.append_empty.symm

/-- Different ids under one pattern have different keys. -/
theorem ScanPattern.text_key_inj {pattern : ScanPattern} {id other : String} :
    (pattern.key id).text = (pattern.key other).text ↔ id = other := by
  refine ⟨fun same => ?_, congrArg fun id => (pattern.key id).text⟩
  have star := pattern.star_key id
  rw [same, pattern.star_key] at star
  exact (Option.some.inj star).symm

/-- The services find the id in every key that is not to be skipped. -/
theorem ScanPattern.parse_eq_some {pattern : ScanPattern} {text id : String} :
    pattern.parse text = some id ↔ text = (pattern.key id).text ∧ (pattern.key id).Proper := by
  cases pattern with
  | bindings =>
      exact (@Pattern.star_eq_some ScanPattern.bindings.pattern text id).trans
        (and_iff_left trivial).symm
  | members =>
      exact (@Pattern.star_eq_some ScanPattern.members.pattern text id).trans
        (and_iff_left trivial).symm
  | sessions =>
      change (if (stripSuffix ":lock" text).isSome = true then none else _) = some id ↔ _
      rw [Option.ite_none_left_eq_some, stripPrefix_eq_some, and_comm]
      refine and_congr_right fun same => ?_
      rw [same, Bool.not_eq_true, Option.isSome_eq_false_iff, Option.isNone_iff_eq_none]
      exact Iff.rfl

/-- The ids in the keys still owed to a scan. -/
def ScanPattern.ids (pattern : ScanPattern) (keys : Finset String) : Finset String :=
  (keys.image pattern.parse).eraseNone

/-- The ids a scan may return are those of the proper keys in the keyspace. -/
theorem ScanPattern.mem_ids {pattern : ScanPattern} {keys : Finset String} {id : String} :
    id ∈ pattern.ids keys ↔ (pattern.key id).Proper ∧ (pattern.key id).text ∈ keys := by
  rw [ids, Finset.mem_eraseNone, Finset.mem_image]
  constructor
  · rintro ⟨text, member, found⟩
    obtain ⟨rfl, proper⟩ := parse_eq_some.mp found
    exact ⟨proper, member⟩
  · rintro ⟨proper, member⟩
    exact ⟨_, member, parse_eq_some.mpr ⟨rfl, proper⟩⟩

/-- The ids that the code takes out of a page are those of the proper keys on it. -/
theorem ScanPattern.mem_filterMap_parse {pattern : ScanPattern} {page : List String}
    {id : String} : id ∈ page.filterMap pattern.parse ↔
      (pattern.key id).Proper ∧ (pattern.key id).text ∈ page := by
  rw [List.mem_filterMap]
  constructor
  · rintro ⟨text, member, found⟩
    obtain ⟨rfl, proper⟩ := parse_eq_some.mp found
    exact ⟨proper, member⟩
  · rintro ⟨proper, member⟩
    exact ⟨_, member, parse_eq_some.mpr ⟨rfl, proper⟩⟩

/-- The keys of the ids still owed to a scan; the server may owe locks as well, which are
skipped. -/
def ScanPattern.keys (pattern : ScanPattern) (ids : Finset String) : Finset String :=
  ids.image fun id => (pattern.key id).text

/-- The keys of some ids are the keys of no others. -/
theorem ScanPattern.mem_keys {pattern : ScanPattern} {ids : Finset String} {id : String} :
    (pattern.key id).text ∈ pattern.keys ids ↔ id ∈ ids := by
  rw [keys, Finset.mem_image]
  constructor
  · rintro ⟨other, member, same⟩
    exact text_key_inj.mp same ▸ member
  · intro member
    exact ⟨id, member, rfl⟩

/-! ## Commands -/

/-- What the services send for a command, and what they make of the reply. -/
def Command.script (payloads : Payloads) : (command : Command) → Script command.Reply
  | .ping => call .ping
  | .exists key => call (.exists key.text)
  | .hget key field => call (.hget key.text field)
  | .hgetall key => do return collect (← call (.hgetall key.text))
  | .hset key field value => call (.hset key.text [(field, value)])
  | .del key => call (.del key.text)
  | .expire sessionId seconds => call (.expire (sessionKey sessionId) seconds)
  | .sismember roomId nickname => call (.sismember (roomMembersKey roomId) nickname)
  | .sadd roomId nickname => call (.sadd (roomMembersKey roomId) nickname)
  | .srem roomId nickname => call (.srem (roomMembersKey roomId) nickname)
  | .scard roomId => call (.scard (roomMembersKey roomId))
  | .smembers roomId => call (.smembers (roomMembersKey roomId))
  | .delMembers roomId => call (.del (roomMembersKey roomId))
  | .zscore set member => call (.zscore set.text member)
  | .zadd set member score => call (.zadd set.text member score)
  | .zincr set member delta => call (.zincrby set.text member delta)
  | .zrem set member => call (.zrem set.text member)
  | .zrangeWithScores set => call (.zrangeWithScores set.text)
  | .zrangeByScore set min => call (.zrangeByScore set.text min)
  | .zremrangeByScore set max => call (.zremrangeByScore set.text max)
  | .setNx key value expiryMs => call (.setNx key.text value expiryMs)
  | .get key => call (.get key.text)
  | .compareAndDel key value => compareAndDelLua key.text value
  | .hgetInstance instanceId => do
      match ← call (.hget sfuInstancesKey instanceId) with
      | none => return none
      | some payload => return some (← payloads.read payload)
  | .hsetInstance instanceId record =>
      call (.hset sfuInstancesKey [(instanceId, payloads.encode record)])
  | .hgetallInstances => do
      (← call (.hgetall sfuInstancesKey)).mapM fun entry => payloads.read entry.2
  | .assignRoomToSfu roomId ownerHost ownerPort ownerId now staleAfter =>
      assignRoomToSfuLua payloads (roomBindingKey roomId) ownerHost ownerPort ownerId now staleAfter
  | .scan pattern cursor => do
      let (page, next) ← call (.scan pattern.pattern (cursor.map pattern.keys))
      return (page.filterMap pattern.parse, next.map pattern.ids)

/-- The command names no session that can be mistaken for a lock, and a record that it writes
can be written exactly. -/
def Command.Proper : Command → Prop
  | .exists key | .hget key _ | .hgetall key | .hset key _ _ | .del key => key.Proper
  | .expire sessionId _ => Store.Proper sessionId
  | .hsetInstance _ record => record.Exact
  | _ => True

/-! ## Representation -/

namespace Redis

/-- When what is under a key is gone. -/
def deadline (store : Redis) : HashKey → Option ℕ
  | .binding _ => none
  | .session sessionId => (store.sessions.lookup sessionId).bind SessionHash.deadline

/-- The fields under a key. -/
def fields (store : Redis) (key : HashKey) : Map String String :=
  ((store.hash key).map Hash.fields).getD ∅

/-- The payloads are those of the records, and the records can be written exactly. -/
structure Serializes (payloads : Payloads) (records : Map String String)
    (instances : Map InstanceId SfuInstance) : Prop where
  decodes : ∀ instanceId,
    (records.lookup instanceId).map payloads.decode = (instances.lookup instanceId).map some
  exact : ∀ instanceId record, instances.lookup instanceId = some record → record.Exact

/-- The entry shows what the store has under a key. -/
def Shows (payloads : Payloads) (store : Redis) : Key → Option Entry → Prop
  | .hash key, entry => entry = ofFields (store.fields key) (store.deadline key)
  | .members roomId, entry => entry = ofMembers (store.roomMembers roomId) none
  | .scores set, entry => entry = ofScores (store.scores set) none
  | .string key, entry => entry =
      (store.strings.lookup key).map fun string => ⟨.string string.value, string.deadline⟩
  | .instances, entry => ∃ records, entry = ofFields records none ∧
      Serializes payloads records store.instances
  | .heartbeat, _ => True

end Redis

/-- The keys and what they hold are those of the store. -/
structure Represents (payloads : Payloads) (keys : Keyspace) (store : Redis) : Prop where
  shows : ∀ key : Key, key.Proper → store.Shows payloads key (keys.lookup key.text)
  known : ∀ text ∈ keys, ∃ key : Key, key.Proper ∧ key.text = text
  proper : ∀ sessionId ∈ store.sessions, Proper sessionId

/-! ## Changes of one key -/

/-- Nothing but what is under one key differs. -/
structure Frames (key : Key) (before after : Redis) : Prop where
  fields : ∀ other, .hash other ≠ key → after.fields other = before.fields other ∧
    after.deadline other = before.deadline other
  members : ∀ roomId, .members roomId ≠ key →
    after.roomMembers roomId = before.roomMembers roomId
  scores : ∀ set, .scores set ≠ key → after.scores set = before.scores set
  strings : ∀ other, .string other ≠ key →
    after.strings.lookup other = before.strings.lookup other
  instances : .instances ≠ key → after.instances = before.instances

/-- An operation on one key leaves what is shown under the others. -/
theorem Frames.shows {payloads : Payloads} {key other : Key} {before after : Redis}
    (frames : Frames key before after) (different : other ≠ key) {entry : Option Entry}
    (shows : before.Shows payloads other entry) : after.Shows payloads other entry := by
  cases other with
  | hash hashKey =>
      obtain ⟨fields, deadline⟩ := frames.fields hashKey different
      simpa only [Redis.Shows, fields, deadline] using shows
  | members roomId => simpa only [Redis.Shows, frames.members roomId different] using shows
  | scores set => simpa only [Redis.Shows, frames.scores set different] using shows
  | string stringKey => simpa only [Redis.Shows, frames.strings stringKey different] using shows
  | instances => simpa only [Redis.Shows, frames.instances different] using shows
  | heartbeat => trivial

namespace Redis

variable (store : Redis)

/-- Redis drops a hash with its last field, so a hash without fields is no hash. -/
theorem fields_eq_empty {key : HashKey} :
    store.fields key = ∅ ↔ (store.hash key).isSome = false := by
  unfold fields
  cases store.hash key with
  | none => simp
  | some hash => simp [hash.nonempty]

/-- The fields of a hash, also of one that is absent. -/
theorem lookup_fields (key : HashKey) (field : String) :
    (store.fields key).lookup field = (store.hash key).bind (·.get field) := by
  unfold fields
  cases store.hash key with
  | none => rfl
  | some hash => rfl

/-- `HSET` changes the fields of one key only. -/
theorem fields_hset (key other : HashKey) (field value : String) :
    (store.hset key field value).fields other =
      if other = key then (store.fields key).insert field value else store.fields other := by
  cases key with
  | binding roomId =>
      cases other with
      | binding query =>
          simp only [fields, hash, hset, lookup_insert_if, HashKey.binding.injEq]
          split <;> rfl
      | session query => rfl
  | session sessionId =>
      cases other with
      | binding query => rfl
      | session query =>
          simp only [fields, hash, hset, lookup_insert_if, HashKey.session.injEq]
          split <;> rfl

/-- `HSET` keeps the time to live. -/
theorem deadline_hset (key other : HashKey) (field value : String) :
    (store.hset key field value).deadline other = store.deadline other := by
  cases key with
  | binding roomId => cases other <;> rfl
  | session sessionId =>
      cases other with
      | binding query => rfl
      | session query =>
          simp only [deadline, hset, lookup_insert_if]
          split
          · rename_i same
            rw [same]
            rfl
          · rfl

/-- `DEL` takes all fields of one key. -/
theorem fields_delHash (key other : HashKey) :
    (store.delHash key).fields other = if other = key then ∅ else store.fields other := by
  cases key with
  | binding roomId =>
      cases other with
      | binding query =>
          simp only [fields, hash, delHash, lookup_erase_if, HashKey.binding.injEq]
          split <;> rfl
      | session query => rfl
  | session sessionId =>
      cases other with
      | binding query => rfl
      | session query =>
          simp only [fields, hash, delHash, lookup_erase_if, HashKey.session.injEq]
          split <;> rfl

/-- A deleted hash has no time to live. -/
theorem deadline_delHash_self (key : HashKey) : (store.delHash key).deadline key = none := by
  cases key with
  | binding roomId => rfl
  | session sessionId =>
      simp only [deadline, delHash, Finmap.lookup_erase]
      rfl

/-- The time to live of the other hashes stays. -/
theorem deadline_delHash {key other : HashKey} (different : other ≠ key) :
    (store.delHash key).deadline other = store.deadline other := by
  cases key with
  | binding roomId => cases other <;> rfl
  | session sessionId =>
      cases other with
      | binding query => rfl
      | session query =>
          simp only [deadline, delHash, lookup_erase_if]
          rw [if_neg fun same => different (congrArg HashKey.session same)]

/-- `HSET` makes no session other than its own. -/
theorem mem_sessions_hset {key : HashKey} {field value : String} {sessionId : SessionId}
    (member : sessionId ∈ (store.hset key field value).sessions) :
    key = .session sessionId ∨ sessionId ∈ store.sessions := by
  cases key with
  | binding roomId => exact .inr member
  | session other =>
      rcases Finmap.mem_insert.mp member with same | before
      · exact .inl (congrArg HashKey.session same.symm)
      · exact .inr before

/-- `DEL` makes no session. -/
theorem mem_sessions_delHash {key : HashKey} {sessionId : SessionId}
    (member : sessionId ∈ (store.delHash key).sessions) : sessionId ∈ store.sessions := by
  cases key with
  | binding roomId => exact member
  | session other => exact (Finmap.mem_erase.mp member).2

/-- `HSET` touches one key. -/
theorem frames_hset (key : HashKey) (field value : String) :
    Frames (.hash key) store (store.hset key field value) where
  fields other different :=
    ⟨by rw [fields_hset, if_neg fun same => different (congrArg Key.hash same)],
      store.deadline_hset key other field value⟩
  members _ _ := by cases key <;> rfl
  scores _ _ := by cases key <;> rfl
  strings _ _ := by cases key <;> rfl
  instances _ := by cases key <;> rfl

/-- `DEL` of a hash touches one key. -/
theorem frames_delHash (key : HashKey) : Frames (.hash key) store (store.delHash key) where
  fields other different :=
    ⟨by rw [fields_delHash, if_neg fun same => different (congrArg Key.hash same)],
      store.deadline_delHash fun same => different (congrArg Key.hash same)⟩
  members _ _ := by cases key <;> rfl
  scores _ _ := by cases key <;> rfl
  strings _ _ := by cases key <;> rfl
  instances _ := by cases key <;> rfl

/-- A change of one session touches its key only. -/
theorem frames_sessions {sessions : Map SessionId SessionHash} {sessionId : SessionId}
    (others : ∀ other, other ≠ sessionId →
      sessions.lookup other = store.sessions.lookup other) :
    Frames (.hash (.session sessionId)) store { store with sessions } where
  fields other different := by
    cases other with
    | binding roomId => exact ⟨rfl, rfl⟩
    | session query =>
        have same := others query fun same => different (by rw [same])
        simp only [fields, hash, deadline, same, and_self]
  members _ _ := rfl
  scores _ _ := rfl
  strings _ _ := rfl
  instances _ := rfl

/-- A change of one binding touches its key only. -/
theorem frames_bindings {bindings : Map RoomId Hash} {roomId : RoomId}
    (others : ∀ other, other ≠ roomId → bindings.lookup other = store.bindings.lookup other) :
    Frames (.hash (.binding roomId)) store { store with bindings } where
  fields other different := by
    cases other with
    | binding query =>
        have same := others query fun same => different (by rw [same])
        simp only [fields, hash, deadline, same, and_self]
    | session sessionId => exact ⟨rfl, rfl⟩
  members _ _ := rfl
  scores _ _ := rfl
  strings _ _ := rfl
  instances _ := rfl

/-- A change of the members of one room touches its key only. -/
theorem frames_members {members : Finset (RoomId × Nickname)} {roomId : RoomId}
    (others : ∀ other nickname, other ≠ roomId →
      ((other, nickname) ∈ members ↔ (other, nickname) ∈ store.members)) :
    Frames (.members roomId) store { store with members } where
  fields _ _ := ⟨rfl, rfl⟩
  members other different := by
    refine Finset.ext fun nickname => ?_
    rw [mem_roomMembers, mem_roomMembers]
    exact others other nickname fun same => different (congrArg Key.members same)
  scores _ _ := rfl
  strings _ _ := rfl
  instances _ := rfl

/-- A change of a sorted set touches its key only. -/
theorem frames_scores (set : SortedSet) (scores : Map String ℤ) :
    Frames (.scores set) store (store.setScores set scores) where
  fields _ _ := ⟨rfl, rfl⟩
  members _ _ := rfl
  scores _ different :=
    Function.update_of_ne (fun same => different (congrArg Key.scores same)) _ _
  strings _ _ := rfl
  instances _ := rfl

/-- A change of one lock, lease or spent token touches its key only. -/
theorem frames_strings {strings : Map StringKey StringValue} {key : StringKey}
    (others : ∀ other, other ≠ key → strings.lookup other = store.strings.lookup other) :
    Frames (.string key) store { store with strings } where
  fields _ _ := ⟨rfl, rfl⟩
  members _ _ := rfl
  scores _ _ := rfl
  strings other different := others other fun same => different (congrArg Key.string same)
  instances _ := rfl

/-- A change of the instances touches `sfu:instances` only. -/
theorem frames_instances (instances : Map InstanceId SfuInstance) :
    Frames .instances store { store with instances } where
  fields _ _ := ⟨rfl, rfl⟩
  members _ _ := rfl
  scores _ _ := rfl
  strings _ _ := rfl
  instances different := (different rfl).elim

end Redis

namespace Represents

variable {payloads : Payloads} {keys after : Keyspace} {store : Redis} {now : ℕ}

/-- A change of what is under one key. -/
theorem write (represents : Represents payloads keys store) (key : Key) (proper : key.Proper)
    {entry : Option Entry} {changed : Redis} (shows : changed.Shows payloads key entry)
    (frames : Frames key store changed) (sessions : ∀ sessionId ∈ changed.sessions,
      Proper sessionId) : Represents payloads (keys.put key.text entry) changed where
  shows other properly := by
    rw [lookup_put]
    by_cases same : other = key
    · rw [if_pos (congrArg Key.text same), same]
      exact shows
    · rw [if_neg fun equal => same ((Key.text_inj properly proper).mp equal)]
      exact frames.shows same (represents.shows other properly)
  known text member := by
    rw [Finmap.mem_iff] at member
    obtain ⟨found, held⟩ := member
    rw [lookup_put] at held
    by_cases same : text = key.text
    · exact ⟨key, proper, same.symm⟩
    · rw [if_neg same] at held
      exact represents.known text (Finmap.mem_of_lookup_eq_some held)
  proper := sessions

/-! ## Reads -/

/-- The payload under an id is that of the record. -/
theorem read_payload {records : Map String String} {instanceId : InstanceId} {payload : String}
    (all : Redis.Serializes payloads records store.instances)
    (found : records.lookup instanceId = some payload) :
    ∃ record, store.instances.lookup instanceId = some record ∧
      payloads.read payload = pure record := by
  have decoded := all.decodes instanceId
  rw [found] at decoded
  obtain ⟨record, held, same⟩ := Option.map_eq_some_iff.mp decoded.symm
  exact ⟨record, held, Payloads.read_eq same.symm⟩

/-- The payloads of all records, in some order, are those of the records in some order. -/
theorem exists_lists {records : Map String String} {items : List (String × String)}
    (all : Redis.Serializes payloads records store.instances) (lists : Lists items records) :
    ∃ instances, items.map (fun entry => payloads.decode entry.2) = instances.map some ∧
      store.Lists instances := by
  have readable : ∀ entry ∈ items, ∃ record, payloads.decode entry.2 = some record := by
    intro entry member
    have decoded := all.decodes entry.1
    rw [lists.mem_iff.mp member] at decoded
    obtain ⟨record, -, same⟩ := Option.map_eq_some_iff.mp decoded.symm
    exact ⟨record, same.symm⟩
  refine ⟨items.filterMap fun entry => payloads.decode entry.2, ?_, ?_⟩
  · clear lists
    induction items with
    | nil => rfl
    | cons entry items ih =>
        obtain ⟨record, decoded⟩ := readable entry List.mem_cons_self
        have rest := ih fun other member => readable other (List.mem_cons_of_mem _ member)
        simp only [List.map_cons, List.filterMap_cons, decoded, rest]
  · have same := congrArg (Multiset.filterMap Prod.snd) (map_entries_congr all.decodes)
    rw [Multiset.filterMap_map, Multiset.filterMap_map] at same
    have listed : ((items.filterMap fun entry => payloads.decode entry.2 : List SfuInstance) :
        Multiset SfuInstance) = (items : Multiset (String × String)).filterMap
          fun entry => payloads.decode entry.2 := rfl
    change ((items.filterMap fun entry => payloads.decode entry.2 : List SfuInstance) :
      Multiset SfuInstance) = _
    rw [listed, show (items : Multiset (String × String)) = _ from lists, Multiset.filterMap_map]
    exact same.trans (congrFun (Multiset.filterMap_eq_map _) _)

/-- Payloads that decode are read one after the other. -/
theorem mapM_read {items : List (String × String)} {instances : List SfuInstance}
    (decoded : items.map (fun entry => payloads.decode entry.2) = instances.map some) :
    (items.mapM fun entry => payloads.read entry.2) = (pure instances : Script _) := by
  induction items generalizing instances with
  | nil =>
      cases instances with
      | nil => rfl
      | cons record instances => cases decoded
  | cons entry items ih =>
      cases instances with
      | nil => cases decoded
      | cons record instances =>
          obtain ⟨first, decoded⟩ := List.cons.inj decoded
          rw [List.mapM_cons, ih decoded, Payloads.read_eq first]
          rfl

/-- One iteration keeps the load of the best instance beside it. -/
theorem betterLoad_scored (clock staleAfter : ℤ) (best : Option SfuInstance)
    (record : SfuInstance) :
    betterLoad clock staleAfter
        (best.map fun best => (best, store.score .roomLoad best.instanceId)) record
        (store.score .roomLoad record.instanceId) =
      (store.betterInstance clock staleAfter best record).map
        fun best => (best, store.score .roomLoad best.instanceId) := by
  unfold betterLoad Redis.betterInstance Redis.Eligible
  cases best with
  | none => split <;> split <;> simp_all
  | some best => split <;> split <;> simp_all

section Reads

variable (represents : Represents payloads keys store)

include represents

/-- A key of the keyspace holds the fields of the hash it stands for. -/
theorem fieldsOf_hash {key : HashKey} (proper : key.Proper) :
    fieldsOf (keys.lookup key.text) = .ok (store.fields key) := by
  rw [show keys.lookup key.text = _ from represents.shows (.hash key) proper, fieldsOf_ofFields]

/-- A key of the keyspace expires when the hash it stands for does. -/
theorem deadlineOf_hash {key : HashKey} (proper : key.Proper) :
    deadlineOf (keys.lookup key.text) = store.deadline key := by
  rw [show keys.lookup key.text = _ from represents.shows (.hash key) proper]
  by_cases empty : store.fields key = ∅
  · have absent := (store.fields_eq_empty).mp empty
    rw [empty]
    cases key with
    | binding roomId => rfl
    | session sessionId =>
        simp only [Redis.hash, Option.isSome_map] at absent
        rw [Redis.deadline, Option.isNone_iff_eq_none.mp (Option.isSome_eq_false_iff.mp absent)]
        rfl
  · rw [ofFields_of_nonempty _ empty]
    rfl

/-- A hash is there exactly if its key is. -/
theorem isSome_hash {key : HashKey} (proper : key.Proper) :
    (keys.lookup key.text).isSome = (store.hash key).isSome := by
  rw [show keys.lookup key.text = _ from represents.shows (.hash key) proper, isSome_ofFields]
  cases held : (store.hash key).isSome with
  | false => simpa using (store.fields_eq_empty).mpr held
  | true =>
      refine decide_eq_true fun empty => ?_
      rw [(store.fields_eq_empty).mp empty] at held
      exact Bool.false_ne_true held

/-- A binding is there exactly if its key is. -/
theorem isSome_binding (roomId : RoomId) :
    (keys.lookup (roomBindingKey roomId)).isSome = (store.bindings.lookup roomId).isSome :=
  @isSome_hash _ _ _ represents (.binding roomId) trivial

/-- The key of a room's members holds them as a set. -/
theorem lookup_members (roomId : RoomId) :
    keys.lookup (roomMembersKey roomId) = ofMembers (store.roomMembers roomId) none :=
  represents.shows (.members roomId) trivial

/-- The key of a sorted set holds its scores. -/
theorem lookup_scores (set : SortedSet) :
    keys.lookup set.text = ofScores (store.scores set) none :=
  represents.shows (.scores set) trivial

/-- The key of a string holds its value and its deadline. -/
theorem lookup_string (key : StringKey) : keys.lookup key.text =
    (store.strings.lookup key).map fun string => ⟨.string string.value, string.deadline⟩ :=
  represents.shows (.string key) trivial

/-- The key of the instances holds one payload for each record. -/
theorem lookup_instances : ∃ records, keys.lookup sfuInstancesKey = ofFields records none ∧
    Redis.Serializes payloads records store.instances :=
  represents.shows .instances trivial

end Reads

/-! ## Steps -/

/-- What the services get for a command is what the typed store may answer. -/
def Answers (payloads : Payloads) (now : ℕ) (store : Redis) (command : Command)
    (result : Except Failure command.Reply) (after : Keyspace) : Prop :=
  ∃ reply changed, result = .ok reply ∧ Redis.exec now command store reply changed ∧
    Represents payloads after changed

section Steps

variable (represents : Represents payloads keys store)

include represents

/-- `EXISTS` answers as the typed store does. -/
theorem exists_answers {key : HashKey} (proper : key.Proper) {result : Except Failure Bool}
    (steps : eval now (call (.exists key.text)) keys result after) :
    Answers payloads now store (.exists key) result after := by
  obtain ⟨_, ⟨rfl, rfl⟩, rfl⟩ := eval_call.mp steps
  exact ⟨_, store, rfl, ⟨represents.isSome_hash proper, rfl⟩, represents⟩

/-- `HGET` answers as the typed store does. -/
theorem hget_answers {key : HashKey} (proper : key.Proper) {field : String}
    {result : Except Failure (Option String)}
    (steps : eval now (call (.hget key.text field)) keys result after) :
    Answers payloads now store (.hget key field) result after := by
  obtain ⟨_, step, rfl⟩ := eval_call.mp steps
  simp only [exec, represents.fieldsOf_hash proper] at step
  obtain ⟨_, rfl, rfl, rfl⟩ := step
  exact ⟨_, store, rfl, ⟨store.lookup_fields key field, rfl⟩, represents⟩

/-- `HGETALL` answers as the typed store does. -/
theorem hgetall_answers {key : HashKey} (proper : key.Proper)
    {result : Except Failure (Map String String)}
    (steps : eval now ((Command.hgetall key).script payloads) keys result after) :
    Answers payloads now store (.hgetall key) result after := by
  obtain ⟨_, _, step, rest⟩ := eval_call_bind.mp steps
  simp only [exec, represents.fieldsOf_hash proper] at step
  obtain ⟨_, rfl, lists, rfl⟩ := step
  obtain ⟨rfl, rfl⟩ := rest
  rw [lists.collect_eq]
  exact ⟨_, store, rfl, ⟨rfl, rfl⟩, represents⟩

/-- `HSET` of one field answers and acts as in the typed store. -/
theorem hset_answers {key : HashKey} (proper : key.Proper) {field value : String}
    {result : Except Failure Unit}
    (steps : eval now (call (.hset key.text [(field, value)])) keys result after) :
    Answers payloads now store (.hset key field value) result after := by
  obtain ⟨_, step, rfl⟩ := eval_call.mp steps
  simp only [exec, represents.fieldsOf_hash proper, represents.deadlineOf_hash proper] at step
  obtain ⟨_, rfl, rfl⟩ := step
  refine ⟨_, _, rfl, rfl, represents.write (.hash key) proper ?_
    (store.frames_hset key field value) fun sessionId member => ?_⟩
  · change _ = _
    rw [store.fields_hset, if_pos rfl, store.deadline_hset]
    rfl
  · rcases store.mem_sessions_hset member with rfl | before
    · exact proper
    · exact represents.proper sessionId before

/-- `DEL` of a hash answers and acts as in the typed store. -/
theorem del_answers {key : HashKey} (proper : key.Proper) {result : Except Failure ℕ}
    (steps : eval now (call (.del key.text)) keys result after) :
    Answers payloads now store (.del key) result after := by
  obtain ⟨_, ⟨rfl, rfl⟩, rfl⟩ := eval_call.mp steps
  refine ⟨_, _, rfl, ⟨by rw [represents.isSome_hash proper], rfl⟩,
    represents.write (.hash key) proper ?_ (store.frames_delHash key) fun sessionId member =>
      represents.proper sessionId (store.mem_sessions_delHash member)⟩
  change _ = _
  rw [store.fields_delHash, if_pos rfl, store.deadline_delHash_self]
  rfl

/-- `EXPIRE` of a session answers and acts as in the typed store. -/
theorem expire_answers {sessionId : SessionId} (proper : Proper sessionId) {seconds : ℕ}
    {result : Except Failure Bool}
    (steps : eval now (call (.expire (sessionKey sessionId) seconds)) keys result after) :
    Answers payloads now store (.expire sessionId seconds) result after := by
  obtain ⟨_, ⟨rfl, rfl⟩, rfl⟩ := eval_call.mp steps
  have held := represents.shows (.hash (.session sessionId)) proper
  change keys.lookup (sessionKey sessionId) = _ at held
  have present := @isSome_hash _ _ _ represents (.session sessionId) proper
  refine ⟨_, _, rfl, ⟨present.trans (by rw [Redis.hash, Option.isSome_map]), rfl⟩,
    represents.write (.hash (.session sessionId)) proper ?_
      (store.frames_sessions fun other different => ?_) fun query member =>
        represents.proper query (mem_adjust.mp member)⟩
  · rw [held]
    change _ = ofFields _ _
    simp only [Redis.fields, Redis.hash, Redis.deadline, lookup_adjust, if_pos]
    cases found : store.sessions.lookup sessionId with
    | none => rfl
    | some session =>
        simp only [Option.map_some, Option.getD_some, Option.bind_some,
          ofFields_of_nonempty _ session.hash.nonempty]
  · rw [lookup_adjust, if_neg different]

/-! ### Sets -/

/-- `SISMEMBER` answers as the typed store does. -/
theorem sismember_answers {roomId : RoomId} {nickname : Nickname} {result : Except Failure Bool}
    (steps : eval now (call (.sismember (roomMembersKey roomId) nickname)) keys result after) :
    Answers payloads now store (.sismember roomId nickname) result after := by
  obtain ⟨_, step, rfl⟩ := eval_call.mp steps
  simp only [exec, represents.lookup_members, membersOf_ofMembers] at step
  obtain ⟨_, rfl, rfl, rfl⟩ := step
  exact ⟨_, store, rfl, ⟨by simp only [Redis.mem_roomMembers], rfl⟩, represents⟩

/-- `SCARD` answers as the typed store does. -/
theorem scard_answers {roomId : RoomId} {result : Except Failure ℕ}
    (steps : eval now (call (.scard (roomMembersKey roomId))) keys result after) :
    Answers payloads now store (.scard roomId) result after := by
  obtain ⟨_, step, rfl⟩ := eval_call.mp steps
  simp only [exec, represents.lookup_members, membersOf_ofMembers] at step
  obtain ⟨_, rfl, rfl, rfl⟩ := step
  exact ⟨_, store, rfl, ⟨rfl, rfl⟩, represents⟩

/-- `SMEMBERS` lists the members in some order, as the typed store does. -/
theorem smembers_answers {roomId : RoomId} {result : Except Failure (List String)}
    (steps : eval now (call (.smembers (roomMembersKey roomId))) keys result after) :
    Answers payloads now store (.smembers roomId) result after := by
  obtain ⟨_, step, rfl⟩ := eval_call.mp steps
  simp only [exec, represents.lookup_members, membersOf_ofMembers] at step
  obtain ⟨_, rfl, lists, rfl⟩ := step
  exact ⟨_, store, rfl, ⟨lists, rfl⟩, represents⟩

/-- A change of the members of a room. -/
theorem write_members {roomId : RoomId} {members : Finset (RoomId × Nickname)}
    {nicknames : Finset Nickname}
    (own : ∀ nickname, (roomId, nickname) ∈ members ↔ nickname ∈ nicknames)
    (others : ∀ other nickname, other ≠ roomId →
      ((other, nickname) ∈ members ↔ (other, nickname) ∈ store.members)) :
    Represents payloads (keys.put (roomMembersKey roomId) (ofMembers nicknames none))
      { store with members } := by
  refine represents.write (.members roomId) trivial ?_ (store.frames_members others)
    represents.proper
  have same : Redis.roomMembers { store with members } roomId = nicknames := by
    refine Finset.ext fun nickname => ?_
    rw [Redis.mem_roomMembers]
    exact own nickname
  exact congrArg (ofMembers · none) same.symm

/-- `SADD` acts as in the typed store. -/
theorem sadd_answers {roomId : RoomId} {nickname : Nickname} {result : Except Failure Unit}
    (steps : eval now (call (.sadd (roomMembersKey roomId) nickname)) keys result after) :
    Answers payloads now store (.sadd roomId nickname) result after := by
  obtain ⟨_, step, rfl⟩ := eval_call.mp steps
  simp only [exec, represents.lookup_members, membersOf_ofMembers,
    deadlineOf_ofMembers_none] at step
  obtain ⟨_, rfl, rfl⟩ := step
  refine ⟨_, _, rfl, rfl, represents.write_members (fun other => ?_) fun other name different => ?_⟩
  · simp
  · simp [different]

/-- `SREM` answers and acts as in the typed store. -/
theorem srem_answers {roomId : RoomId} {nickname : Nickname} {result : Except Failure ℕ}
    (steps : eval now (call (.srem (roomMembersKey roomId) nickname)) keys result after) :
    Answers payloads now store (.srem roomId nickname) result after := by
  obtain ⟨_, step, rfl⟩ := eval_call.mp steps
  simp only [exec, represents.lookup_members, membersOf_ofMembers,
    deadlineOf_ofMembers_none] at step
  obtain ⟨_, rfl, rfl, rfl⟩ := step
  refine ⟨_, _, rfl, ⟨by simp only [Redis.mem_roomMembers], rfl⟩,
    represents.write_members (fun other => ?_) fun other name different => ?_⟩
  · simp
  · simp [different]

/-- `DEL` of a room's members answers and acts as in the typed store. -/
theorem delMembers_answers {roomId : RoomId} {result : Except Failure ℕ}
    (steps : eval now (call (.del (roomMembersKey roomId))) keys result after) :
    Answers payloads now store (.delMembers roomId) result after := by
  obtain ⟨_, ⟨rfl, rfl⟩, rfl⟩ := eval_call.mp steps
  refine ⟨_, _, rfl, ⟨?_, rfl⟩,
    @write_members _ _ _ represents roomId _ ∅ (fun other => ?_) fun other name different => ?_⟩
  · simp only [represents.lookup_members, isSome_ofMembers, decide_eq_true_eq,
      Finset.nonempty_iff_ne_empty]
  · simp
  · simp [different]

/-! ### Sorted sets -/

/-- `ZSCORE` answers as the typed store does. -/
theorem zscore_answers {set : SortedSet} {member : String} {result : Except Failure (Option ℤ)}
    (steps : eval now (call (.zscore set.text member)) keys result after) :
    Answers payloads now store (.zscore set member) result after := by
  obtain ⟨_, step, rfl⟩ := eval_call.mp steps
  simp only [exec, represents.lookup_scores, scoresOf_ofScores] at step
  obtain ⟨_, rfl, rfl, rfl⟩ := step
  exact ⟨_, store, rfl, ⟨rfl, rfl⟩, represents⟩

/-- `ZRANGE WITHSCORES` lists the entries in some order, as the typed store does. -/
theorem zrangeWithScores_answers {set : SortedSet} {result : Except Failure (List (String × ℤ))}
    (steps : eval now (call (.zrangeWithScores set.text)) keys result after) :
    Answers payloads now store (.zrangeWithScores set) result after := by
  obtain ⟨_, step, rfl⟩ := eval_call.mp steps
  simp only [exec, represents.lookup_scores, scoresOf_ofScores] at step
  obtain ⟨_, rfl, lists, rfl⟩ := step
  exact ⟨_, store, rfl, ⟨lists, rfl⟩, represents⟩

/-- `ZRANGEBYSCORE` lists the members from a score on, as the typed store does. -/
theorem zrangeByScore_answers {set : SortedSet} {min : ℤ} {result : Except Failure (List String)}
    (steps : eval now (call (.zrangeByScore set.text min)) keys result after) :
    Answers payloads now store (.zrangeByScore set min) result after := by
  obtain ⟨_, step, rfl⟩ := eval_call.mp steps
  simp only [exec, represents.lookup_scores, scoresOf_ofScores] at step
  obtain ⟨_, rfl, lists, rfl⟩ := step
  exact ⟨_, store, rfl, ⟨lists, rfl⟩, represents⟩

/-- A change of a sorted set. -/
theorem write_scores (set : SortedSet) (scores : Map String ℤ) :
    Represents payloads (keys.put set.text (ofScores scores none)) (store.setScores set scores) :=
  represents.write (.scores set) trivial (congrArg (ofScores · none) (by simp))
    (store.frames_scores set scores) represents.proper

/-- `ZADD` acts as in the typed store. -/
theorem zadd_answers {set : SortedSet} {member : String} {score : ℤ} {result : Except Failure Unit}
    (steps : eval now (call (.zadd set.text member score)) keys result after) :
    Answers payloads now store (.zadd set member score) result after := by
  obtain ⟨_, step, rfl⟩ := eval_call.mp steps
  simp only [exec, represents.lookup_scores, scoresOf_ofScores, deadlineOf_ofScores_none] at step
  obtain ⟨_, rfl, rfl⟩ := step
  exact ⟨_, _, rfl, rfl, represents.write_scores set _⟩

/-- `ZINCRBY` acts as in the typed store. -/
theorem zincr_answers {set : SortedSet} {member : String} {delta : ℤ}
    {result : Except Failure Unit}
    (steps : eval now (call (.zincrby set.text member delta)) keys result after) :
    Answers payloads now store (.zincr set member delta) result after := by
  obtain ⟨_, step, rfl⟩ := eval_call.mp steps
  simp only [exec, represents.lookup_scores, scoresOf_ofScores, deadlineOf_ofScores_none] at step
  obtain ⟨_, rfl, rfl⟩ := step
  exact ⟨_, _, rfl, rfl, represents.write_scores set _⟩

/-- `ZREM` acts as in the typed store. -/
theorem zrem_answers {set : SortedSet} {member : String} {result : Except Failure Unit}
    (steps : eval now (call (.zrem set.text member)) keys result after) :
    Answers payloads now store (.zrem set member) result after := by
  obtain ⟨_, step, rfl⟩ := eval_call.mp steps
  simp only [exec, represents.lookup_scores, scoresOf_ofScores, deadlineOf_ofScores_none] at step
  obtain ⟨_, rfl, rfl⟩ := step
  exact ⟨_, _, rfl, rfl, represents.write_scores set _⟩

/-- `ZREMRANGEBYSCORE` acts as in the typed store. -/
theorem zremrangeByScore_answers {set : SortedSet} {max : ℤ} {result : Except Failure Unit}
    (steps : eval now (call (.zremrangeByScore set.text max)) keys result after) :
    Answers payloads now store (.zremrangeByScore set max) result after := by
  obtain ⟨_, step, rfl⟩ := eval_call.mp steps
  simp only [exec, represents.lookup_scores, scoresOf_ofScores, deadlineOf_ofScores_none] at step
  obtain ⟨_, rfl, rfl⟩ := step
  exact ⟨_, _, rfl, rfl, represents.write_scores set _⟩

/-! ### Strings -/

/-- A string is absent exactly if its key is. -/
theorem isNone_string (key : StringKey) :
    (keys.lookup key.text).isNone = (store.strings.lookup key).isNone := by
  rw [represents.lookup_string, Option.isNone_map]

/-- A string's key holds its value. -/
theorem textOf_string (key : StringKey) : textOf (keys.lookup key.text) =
    .ok ((store.strings.lookup key).map StringValue.value) := by
  rw [represents.lookup_string]
  cases store.strings.lookup key <;> rfl

/-- `SET NX` answers and acts as in the typed store, with the same deadline. -/
theorem setNx_answers {key : StringKey} {value : String} {expiryMs : Option ℕ}
    {result : Except Failure Bool}
    (steps : eval now (call (.setNx key.text value expiryMs)) keys result after) :
    Answers payloads now store (.setNx key value expiryMs) result after := by
  obtain ⟨_, ⟨rfl, rfl⟩, rfl⟩ := eval_call.mp steps
  refine ⟨_, _, rfl, ⟨represents.isNone_string key, rfl⟩, ?_⟩
  rw [represents.isNone_string]
  split
  · refine represents.write (.string key) trivial ?_
      (store.frames_strings fun other different => ?_)
      represents.proper
    · change _ = _
      simp only [lookup_insert_if, if_pos, Option.map_some]
    · rw [lookup_insert_if, if_neg different]
  · exact represents

/-- `GET` answers as the typed store does. -/
theorem get_answers {key : StringKey} {result : Except Failure (Option String)}
    (steps : eval now (call (.get key.text)) keys result after) :
    Answers payloads now store (.get key) result after := by
  obtain ⟨_, step, rfl⟩ := eval_call.mp steps
  simp only [exec, represents.textOf_string] at step
  obtain ⟨_, rfl, rfl, rfl⟩ := step
  exact ⟨_, store, rfl, ⟨rfl, rfl⟩, represents⟩

/-- The script that releases a lock answers and acts as the typed command. -/
theorem compareAndDel_answers {key : StringKey} {value : String} {result : Except Failure ℕ}
    (steps : eval now (compareAndDelLua key.text value) keys result after) :
    Answers payloads now store (.compareAndDel key value) result after := by
  obtain ⟨_, kept, step, rest⟩ := eval_call_bind.mp steps
  simp only [exec, represents.textOf_string] at step
  obtain ⟨_, rfl, rfl, rfl⟩ := step
  unfold Answers Redis.exec
  by_cases same : (store.strings.lookup key).map StringValue.value = some value
  · simp only [if_pos same] at rest ⊢
    obtain ⟨_, ⟨rfl, rfl⟩, rfl⟩ := eval_call.mp rest
    have present : (kept.lookup key.text).isSome = true := by
      rw [represents.lookup_string, Option.isSome_map]
      obtain ⟨_, found, -⟩ := Option.map_eq_some_iff.mp same
      rw [found]
      rfl
    refine ⟨_, _, rfl, ⟨if_pos present, rfl⟩, represents.write (.string key) trivial ?_
      (store.frames_strings fun other different => ?_) represents.proper⟩
    · change _ = _
      simp only [Finmap.lookup_erase, Option.map_none]
    · rw [lookup_erase_if, if_neg different]
  · simp only [if_neg same] at rest ⊢
    obtain ⟨rfl, rfl⟩ := rest
    exact ⟨_, _, rfl, ⟨rfl, rfl⟩, represents⟩

/-! ### SFU records -/

/-- Reading a record decodes the payload under its id. -/
theorem hgetInstance_answers {instanceId : InstanceId}
    {result : Except Failure (Option SfuInstance)}
    (steps : eval now ((Command.hgetInstance instanceId).script payloads) keys result after) :
    Answers payloads now store (.hgetInstance instanceId) result after := by
  obtain ⟨records, held, all⟩ := represents.lookup_instances
  obtain ⟨_, _, step, rest⟩ := eval_call_bind.mp steps
  simp only [exec, held, fieldsOf_ofFields] at step
  obtain ⟨_, rfl, rfl, rfl⟩ := step
  cases found : records.lookup instanceId with
  | none =>
      simp only [found] at rest
      obtain ⟨rfl, rfl⟩ := rest
      have absent := all.decodes instanceId
      rw [found] at absent
      exact ⟨_, _, rfl, ⟨(Option.map_eq_none_iff.mp absent.symm).symm, rfl⟩, represents⟩
  | some payload =>
      obtain ⟨record, present, read⟩ := read_payload all found
      simp only [found, read, pure_bind] at rest
      obtain ⟨rfl, rfl⟩ := rest
      exact ⟨_, _, rfl, ⟨present.symm, rfl⟩, represents⟩

/-- A record is written. -/
theorem write_instance {records : Map String String} {instanceId : InstanceId} {payload : String}
    {record : SfuInstance} (all : Redis.Serializes payloads records store.instances)
    (decoded : payloads.decode payload = some record) (exact : record.Exact) :
    Represents payloads (keys.put sfuInstancesKey
        (ofFields (records.insert instanceId payload) none))
      { store with instances := store.instances.insert instanceId record } := by
  refine represents.write .instances trivial ⟨_, rfl, fun query => ?_, fun query written held => ?_⟩
    (store.frames_instances _) represents.proper
  · rw [lookup_insert_if, lookup_insert_if]
    split
    · simp only [Option.map_some, decoded]
    · exact all.decodes query
  · simp only [lookup_insert_if] at held
    split at held
    · exact Option.some.inj held ▸ exact
    · exact all.exact query written held

/-- Writing a record whose integers `cjson` keeps stores a payload that decodes to it. -/
theorem hsetInstance_answers {instanceId : InstanceId} {record : SfuInstance}
    (exact : record.Exact) {result : Except Failure Unit}
    (steps : eval now ((Command.hsetInstance instanceId record).script payloads) keys result
      after) : Answers payloads now store (.hsetInstance instanceId record) result after := by
  obtain ⟨records, held, all⟩ := represents.lookup_instances
  obtain ⟨_, step, rfl⟩ := eval_call.mp steps
  simp only [exec, held, fieldsOf_ofFields, deadlineOf_ofFields_none] at step
  obtain ⟨_, rfl, rfl⟩ := step
  exact ⟨_, _, rfl, rfl,
    represents.write_instance all (payloads.decode_encode record exact) exact⟩

/-- Reading all records decodes every payload. -/
theorem hgetallInstances_answers {result : Except Failure (List SfuInstance)}
    (steps : eval now (Command.hgetallInstances.script payloads) keys result after) :
    Answers payloads now store .hgetallInstances result after := by
  obtain ⟨records, held, all⟩ := represents.lookup_instances
  obtain ⟨_, _, step, rest⟩ := eval_call_bind.mp steps
  simp only [exec, held, fieldsOf_ofFields] at step
  obtain ⟨items, rfl, lists, rfl⟩ := step
  obtain ⟨instances, decoded, listed⟩ := exists_lists all lists
  simp only [mapM_read decoded] at rest
  obtain ⟨rfl, rfl⟩ := rest
  exact ⟨_, _, rfl, ⟨listed, rfl⟩, represents⟩

/-- The loop of the script finds the instance that is best by the stored loads. -/
theorem bestLoad_finds {clock staleAfter : ℤ} {items : List (String × String)}
    {instances : List SfuInstance} {best : Option SfuInstance}
    {result : Except Failure (Option (SfuInstance × ℤ))}
    (decoded : items.map (fun entry => payloads.decode entry.2) = instances.map some)
    (steps : eval now (bestLoad payloads clock staleAfter
      (best.map fun best => (best, store.score .roomLoad best.instanceId)) items) keys result
      after) :
    result = .ok ((instances.foldl (store.betterInstance clock staleAfter) best).map
      fun best => (best, store.score .roomLoad best.instanceId)) ∧ after = keys := by
  induction items generalizing instances best with
  | nil =>
      cases instances with
      | nil => exact steps
      | cons record instances => cases decoded
  | cons entry items ih =>
      cases instances with
      | nil => cases decoded
      | cons record instances =>
          obtain ⟨first, decoded⟩ := List.cons.inj decoded
          rw [bestLoad, Payloads.read_eq first, pure_bind] at steps
          obtain ⟨_, _, step, rest⟩ := eval_call_bind.mp steps
          have scores := represents.lookup_scores .roomLoad
          change keys.lookup sfuRoomLoadKey = _ at scores
          simp only [exec, scores, scoresOf_ofScores] at step
          obtain ⟨_, rfl, rfl, rfl⟩ := step
          have scored := @betterLoad_scored store clock staleAfter best record
          rw [Redis.score] at scored
          simp only [scored] at rest
          rw [List.foldl_cons]
          exact ih decoded rest

/-- A binding is written as a whole. -/
theorem write_binding (roomId : RoomId) (hash : Hash) :
    Represents payloads (keys.put (roomBindingKey roomId) (ofFields hash.fields none))
      { store with bindings := store.bindings.insert roomId hash } := by
  refine represents.write (.hash (.binding roomId)) trivial ?_
    (store.frames_bindings fun other different => ?_) represents.proper
  · change _ = _
    simp only [Redis.fields, Redis.hash, Redis.deadline, Finmap.lookup_insert, Option.map_some,
      Option.getD_some]
  · rw [lookup_insert_if, if_neg different]

/-- The writes of the script. -/
theorem bindToBest_answers {roomId : RoomId} {ownerHost ownerPort ownerId : String}
    {best : SfuInstance} {load : ℤ} (unbound : (store.bindings.lookup roomId).isSome = false)
    (exact : best.Exact)
    {result : Except Failure (List String)}
    (steps : eval now (bindToBest payloads (roomBindingKey roomId) ownerHost ownerPort ownerId
      (some (best, load))) keys result after) :
    result = .ok [best.instanceId, best.grpcAddr] ∧
      Represents payloads after (store.assign roomId ownerHost ownerPort ownerId best) := by
  have absent : (keys.lookup (roomBindingKey roomId)).isSome = false :=
    (represents.isSome_binding roomId).trans unbound
  obtain ⟨_, _, ⟨rfl, rfl⟩, steps⟩ := eval_call_bind.mp steps
  simp only [absent, Bool.false_eq_true, ↓reduceIte] at steps
  obtain ⟨_, _, bind, steps⟩ := eval_call_bind.mp steps
  simp only [exec, Option.isNone_iff_eq_none.mp (Option.isSome_eq_false_iff.mp absent),
    fieldsOf] at bind
  obtain ⟨_, rfl, rfl⟩ := bind
  have bound := represents.write_binding roomId
    (Redis.newBinding ownerHost ownerPort ownerId best)
  obtain ⟨reply, _, count, steps⟩ := eval_call_bind.mp steps
  obtain ⟨_, _, same, rfl, counted⟩ :=
    @zincr_answers _ _ _ _ _ bound .roomLoad _ _ _ (eval_call.mpr ⟨reply, count, rfl⟩)
  cases reply with
  | error error => cases same
  | ok =>
      obtain ⟨records, held, all⟩ := counted.lookup_instances
      obtain ⟨_, _, save, steps⟩ := eval_call_bind.mp steps
      simp only [exec, held, fieldsOf_ofFields, deadlineOf_ofFields_none] at save
      obtain ⟨_, rfl, rfl⟩ := save
      obtain ⟨rfl, rfl⟩ := steps
      exact ⟨rfl, counted.write_instance all (payloads.decode_reencode _ exact.busy) exact.busy⟩

/-- The assignment script, run on the keys, is the typed command: it chooses the same instance
and writes the same fields. -/
theorem assignRoomToSfu_answers {roomId : RoomId} {ownerHost ownerPort ownerId : String}
    {clock staleAfter : ℤ} {result : Except Failure (List String)}
    (steps : eval now (assignRoomToSfuLua payloads (roomBindingKey roomId) ownerHost ownerPort
      ownerId clock staleAfter) keys result after) :
    Answers payloads now store
      (.assignRoomToSfu roomId ownerHost ownerPort ownerId clock staleAfter) result after := by
  obtain ⟨records, held, all⟩ := represents.lookup_instances
  obtain ⟨_, _, step, rest⟩ := eval_call_bind.mp steps
  simp only [exec, held, fieldsOf_ofFields] at step
  obtain ⟨items, rfl, lists, rfl⟩ := step
  obtain ⟨instances, decoded, listed⟩ := exists_lists all lists
  obtain ⟨_, _, looped, final⟩ := Concurrency.Program.runs_except_bind.mp rest
  obtain ⟨rfl, rfl⟩ := @bestLoad_finds _ _ _ _ _ represents _ _ _ _ none _ decoded looped
  unfold Answers Redis.exec Redis.assignRoomToSfu
  change eval now (bindToBest _ _ _ _ _ ((store.bestInstance clock staleAfter instances).map _)) _
    result after at final
  cases chosen : store.bestInstance clock staleAfter instances with
  | none =>
      rw [chosen] at final
      obtain ⟨rfl, rfl⟩ := final
      exact ⟨_, _, rfl, ⟨instances, listed, by rw [chosen]⟩, represents⟩
  | some best =>
      rw [chosen, Option.map_some] at final
      cases bound : (store.bindings.lookup roomId).isSome with
      | true =>
          obtain ⟨_, _, ⟨rfl, rfl⟩, last⟩ := eval_call_bind.mp final
          simp only [represents.isSome_binding, bound, ↓reduceIte] at last
          obtain ⟨rfl, rfl⟩ := last
          refine ⟨_, _, rfl, ⟨instances, listed, ?_⟩, represents⟩
          simp only [chosen, bound, ↓reduceIte]
      | false =>
          obtain ⟨instanceId, stored⟩ :=
            (Redis.Lists.mem_iff store listed).mp (store.bestInstance_mem chosen)
          obtain ⟨rfl, assigned⟩ :=
            represents.bindToBest_answers bound (all.exact instanceId best stored) final
          refine ⟨_, _, rfl, ⟨instances, listed, ?_⟩, assigned⟩
          simp only [chosen, bound, Bool.false_eq_true, ↓reduceIte]

/-! ### Scans -/

/-- The ids in the store are those whose keys match. -/
theorem mem_store_keys {pattern : ScanPattern} {id : String} : id ∈ store.keys pattern ↔
    (pattern.key id).Proper ∧ (pattern.key id).text ∈ keys.matching pattern.pattern := by
  have found : (pattern.key id).text ∈ keys.matching pattern.pattern ↔
      (keys.lookup (pattern.key id).text).isSome = true := by
    rw [matching, Finset.mem_filter, pattern.star_key, Finmap.mem_keys, Finmap.lookup_isSome]
    exact and_iff_left rfl
  rw [found]
  cases pattern with
  | bindings =>
      have present : (keys.lookup (ScanPattern.bindings.key id).text).isSome = _ :=
        represents.isSome_binding id
      rw [present, Finmap.lookup_isSome, ← Finmap.mem_keys]
      exact (and_iff_right trivial).symm
  | members =>
      have held : keys.lookup (ScanPattern.members.key id).text = _ :=
        represents.lookup_members id
      rw [held, isSome_ofMembers, decide_eq_true_eq, ← Finset.nonempty_iff_ne_empty, Redis.keys,
        Finset.mem_image]
      constructor
      · rintro ⟨⟨_, nickname⟩, member, rfl⟩
        exact ⟨trivial, nickname, store.mem_roomMembers.mpr member⟩
      · rintro ⟨-, nickname, member⟩
        exact ⟨_, store.mem_roomMembers.mp member, rfl⟩
  | sessions =>
      have present (proper : (HashKey.session id).Proper) :
          (keys.lookup (ScanPattern.sessions.key id).text).isSome = true ↔
            id ∈ store.sessions := by
        rw [show (keys.lookup (ScanPattern.sessions.key id).text).isSome = _ from
          @isSome_hash _ _ _ represents (.session id) proper, Redis.hash, Option.isSome_map,
          Finmap.lookup_isSome]
      rw [Redis.keys, Finmap.mem_keys]
      constructor
      · intro member
        have proper := represents.proper id member
        exact ⟨proper, (present proper).mpr member⟩
      · rintro ⟨proper, member⟩
        exact (present proper).mp member

/-- The ids still owed are those of the keys still owed. -/
theorem owed_eq {pattern : ScanPattern} {cursor : Cursor} {page : List String} :
    ((cursor.map (· ∩ store.keys pattern)).getD (store.keys pattern) \
        (page.filterMap pattern.parse).toFinset) =
      pattern.ids ((((cursor.map pattern.keys).map (· ∩ keys.matching pattern.pattern)).getD
        (keys.matching pattern.pattern)) \ page.toFinset) := by
  refine Finset.ext fun id => ?_
  rw [ScanPattern.mem_ids, Finset.mem_sdiff, Finset.mem_sdiff, List.mem_toFinset,
    List.mem_toFinset, ScanPattern.mem_filterMap_parse]
  cases cursor with
  | none =>
      simp only [Option.map_none, Option.getD_none, represents.mem_store_keys]
      tauto
  | some ids =>
      simp only [Option.map_some, Option.getD_some, Finset.mem_inter, ScanPattern.mem_keys,
        represents.mem_store_keys]
      tauto

/-- A page of a `SCAN` answers for the ids of one kind only, as the typed command does. -/
theorem scan_answers {pattern : ScanPattern} {cursor : Cursor}
    {result : Except Failure (List String × Cursor)}
    (steps : eval now ((Command.scan pattern cursor).script payloads) keys result after) :
    Answers payloads now store (.scan pattern cursor) result after := by
  obtain ⟨_, _, ⟨page, next, rfl, scans, rfl⟩, rest⟩ := eval_call_bind.mp steps
  obtain ⟨rfl, rfl⟩ := rest
  obtain ⟨paged, owed⟩ := scans
  refine ⟨_, _, rfl, ⟨⟨fun id member => ?_, ?_⟩, rfl⟩, represents⟩
  · obtain ⟨proper, member⟩ := ScanPattern.mem_filterMap_parse.mp member
    exact represents.mem_store_keys.mpr ⟨proper, paged _ member⟩
  · rw [represents.owed_eq]
    cases next with
    | none =>
        change _ = ∅ at owed
        change pattern.ids _ = ∅
        rw [owed]
        rfl
    | some remaining => exact congrArg pattern.ids owed

/-- **Step lemma.** Whatever the services get for a command, the typed store may answer it. -/
theorem answers {command : Command} (proper : command.Proper)
    {result : Except Failure command.Reply}
    (steps : eval now (command.script payloads) keys result after) :
    Answers payloads now store command result after := by
  cases command with
  | ping =>
      obtain ⟨_, ⟨rfl, rfl⟩, rfl⟩ := eval_call.mp steps
      exact ⟨_, store, rfl, rfl, represents⟩
  | «exists» key => exact represents.exists_answers proper steps
  | hget key field => exact represents.hget_answers proper steps
  | hgetall key => exact represents.hgetall_answers proper steps
  | hset key field value => exact represents.hset_answers proper steps
  | del key => exact represents.del_answers proper steps
  | expire sessionId seconds => exact represents.expire_answers proper steps
  | sismember roomId nickname => exact represents.sismember_answers steps
  | sadd roomId nickname => exact represents.sadd_answers steps
  | srem roomId nickname => exact represents.srem_answers steps
  | scard roomId => exact represents.scard_answers steps
  | smembers roomId => exact represents.smembers_answers steps
  | delMembers roomId => exact represents.delMembers_answers steps
  | zscore set member => exact represents.zscore_answers steps
  | zadd set member score => exact represents.zadd_answers steps
  | zincr set member delta => exact represents.zincr_answers steps
  | zrem set member => exact represents.zrem_answers steps
  | zrangeWithScores set => exact represents.zrangeWithScores_answers steps
  | zrangeByScore set min => exact represents.zrangeByScore_answers steps
  | zremrangeByScore set max => exact represents.zremrangeByScore_answers steps
  | setNx key value expiryMs => exact represents.setNx_answers steps
  | get key => exact represents.get_answers steps
  | compareAndDel key value => exact represents.compareAndDel_answers steps
  | hgetInstance instanceId => exact represents.hgetInstance_answers steps
  | hsetInstance instanceId record => exact represents.hsetInstance_answers proper steps
  | hgetallInstances => exact represents.hgetallInstances_answers steps
  | assignRoomToSfu => exact represents.assignRoomToSfu_answers steps
  | scan pattern cursor => exact represents.scan_answers steps

end Steps

/-! ## Time -/

/-- Nothing is stored yet. -/
theorem empty (payloads : Payloads) : Represents payloads ∅ .empty where
  shows key _ := by
    cases key with
    | hash key => cases key <;> rfl
    | members roomId => rfl
    | scores set => rfl
    | string key => rfl
    | instances => exact ⟨∅, rfl, fun _ => rfl, fun _ _ held => nomatch held⟩
    | heartbeat => trivial
  known _ member := (Finmap.notMem_empty member).elim
  proper _ member := (Finmap.notMem_empty member).elim

/-- Time passes for both. -/
theorem expireUntil (represents : Represents payloads keys store) (time : ℕ) :
    Represents payloads (keys.expireUntil time) (store.expireUntil time) where
  shows key proper := by
    have shown := represents.shows key proper
    rw [Keyspace.lookup_expireUntil]
    cases key with
    | hash key =>
        rw [show keys.lookup (Key.hash key).text = _ from shown]
        cases key with
        | binding roomId => exact filter_lasting (deadlineOf_ofFields_none _) time
        | session sessionId =>
            simp only [Redis.Shows, Redis.fields, Redis.hash, Redis.deadline, Redis.expireUntil,
              lookup_filter]
            cases store.sessions.lookup sessionId with
            | none => rfl
            | some session =>
                simp only [Option.map_some, Option.getD_some, Option.bind_some,
                  ofFields_of_nonempty _ session.hash.nonempty, Option.filter_some]
                split
                · simp only [Option.map_some, Option.getD_some, Option.bind_some,
                    ofFields_of_nonempty _ session.hash.nonempty]
                · rfl
    | members roomId =>
        rw [show keys.lookup (Key.members roomId).text = _ from shown]
        exact filter_lasting (deadlineOf_ofMembers_none _) time
    | scores set =>
        rw [show keys.lookup (Key.scores set).text = _ from shown]
        exact filter_lasting (deadlineOf_ofScores_none _) time
    | string key =>
        rw [show keys.lookup (Key.string key).text = _ from shown]
        simp only [Redis.Shows, Redis.expireUntil, lookup_filter]
        cases store.strings.lookup key with
        | none => rfl
        | some string =>
            simp only [Option.map_some, Option.filter_some]
            split <;> rfl
    | instances =>
        obtain ⟨records, held, all⟩ := shown
        rw [held]
        exact ⟨records, filter_lasting (deadlineOf_ofFields_none _) time, all⟩
    | heartbeat => trivial
  known text member := by
    obtain ⟨entry, found⟩ := Finmap.mem_iff.mp member
    rw [Keyspace.expireUntil, lookup_filter_eq_some] at found
    exact represents.known text (Finmap.mem_of_lookup_eq_some found.1)
  proper sessionId member := by
    obtain ⟨session, found⟩ := Finmap.mem_iff.mp member
    change (FiniteMap.filter _ _).lookup _ = _ at found
    rw [lookup_filter_eq_some] at found
    exact represents.proper sessionId (Finmap.mem_of_lookup_eq_some found.1)

end Represents

end Callifornia.Store
