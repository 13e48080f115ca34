import Callifornia.Concurrency.Program
import Callifornia.Store.FiniteMap
import Mathlib.Data.Finset.Option
import Mathlib.Data.Int.Notation

/-! # A store of texts

The data model of a Redis server: texts name strings, hashes, sets and sorted sets, each with an
optional deadline. A collection without elements does not exist, and a command on a key that holds
a value of another type fails. A script is a program of commands that runs as one step.
-/

open FiniteMap

namespace Keyspace

/-- What a key holds. -/
inductive Value
  | string (text : String)
  | hash (fields : Map String String) (nonempty : fields ≠ ∅)
  | set (members : Finset String) (nonempty : members ≠ ∅)
  | sortedSet (scores : Map String ℤ) (nonempty : scores ≠ ∅)

/-- A value with the time in milliseconds after which it is gone. -/
structure Entry where
  value : Value
  deadline : Option ℕ

end Keyspace

/-- The keys and what they hold. -/
abbrev Keyspace := Map String Keyspace.Entry

namespace Keyspace

/-! ## What is under a key -/

/-- The entry of a hash; without fields there is none. -/
def ofFields (fields : Map String String) (deadline : Option ℕ) : Option Entry :=
  if nonempty : fields ≠ ∅ then some ⟨.hash fields nonempty, deadline⟩ else none

/-- The entry of a set; without members there is none. -/
def ofMembers (members : Finset String) (deadline : Option ℕ) : Option Entry :=
  if nonempty : members ≠ ∅ then some ⟨.set members nonempty, deadline⟩ else none

/-- The entry of a sorted set; without members there is none. -/
def ofScores (scores : Map String ℤ) (deadline : Option ℕ) : Option Entry :=
  if nonempty : scores ≠ ∅ then some ⟨.sortedSet scores nonempty, deadline⟩ else none

/-- The key holds a value of another type. -/
inductive WrongType
  | wrongType
  deriving DecidableEq

/-- The string under a key. -/
def textOf : Option Entry → Except WrongType (Option String)
  | none => .ok none
  | some ⟨.string text, _⟩ => .ok (some text)
  | some _ => .error .wrongType

/-- The fields of the hash under a key. -/
def fieldsOf : Option Entry → Except WrongType (Map String String)
  | none => .ok ∅
  | some ⟨.hash fields _, _⟩ => .ok fields
  | some _ => .error .wrongType

/-- The members of the set under a key. -/
def membersOf : Option Entry → Except WrongType (Finset String)
  | none => .ok ∅
  | some ⟨.set members _, _⟩ => .ok members
  | some _ => .error .wrongType

/-- The scores of the sorted set under a key. -/
def scoresOf : Option Entry → Except WrongType (Map String ℤ)
  | none => .ok ∅
  | some ⟨.sortedSet scores _, _⟩ => .ok scores
  | some _ => .error .wrongType

/-- The deadline of what is under a key. -/
def deadlineOf (entry : Option Entry) : Option ℕ := entry.bind Entry.deadline

section Entries

variable (fields : Map String String) (members : Finset String)
  (scores : Map String ℤ) (deadline : Option ℕ)

/-- What was written as fields is read as fields. -/
@[simp] theorem fieldsOf_ofFields : fieldsOf (ofFields fields deadline) = .ok fields := by
  unfold ofFields
  split
  · rfl
  · rename_i empty
    rw [not_ne_iff.mp empty]
    rfl

/-- What was written as a set is read as a set. -/
@[simp] theorem membersOf_ofMembers : membersOf (ofMembers members deadline) = .ok members := by
  unfold ofMembers
  split
  · rfl
  · rename_i empty
    rw [not_ne_iff.mp empty]
    rfl

/-- What was written as a sorted set is read as one. -/
@[simp] theorem scoresOf_ofScores : scoresOf (ofScores scores deadline) = .ok scores := by
  unfold ofScores
  split
  · rfl
  · rename_i empty
    rw [not_ne_iff.mp empty]
    rfl

/-- A hash without fields is no entry. -/
@[simp] theorem isSome_ofFields : (ofFields fields deadline).isSome = decide (fields ≠ ∅) := by
  unfold ofFields
  split <;> simp_all

/-- A set without members is no entry. -/
@[simp] theorem isSome_ofMembers : (ofMembers members deadline).isSome = decide (members ≠ ∅) := by
  unfold ofMembers
  split <;> simp_all

/-- Fields without a deadline have none. -/
@[simp] theorem deadlineOf_ofFields_none : deadlineOf (ofFields fields none) = none := by
  unfold ofFields
  split <;> rfl

/-- Members without a deadline have none. -/
@[simp] theorem deadlineOf_ofMembers_none : deadlineOf (ofMembers members none) = none := by
  unfold ofMembers
  split <;> rfl

/-- Scores without a deadline have none. -/
@[simp] theorem deadlineOf_ofScores_none : deadlineOf (ofScores scores none) = none := by
  unfold ofScores
  split <;> rfl

variable {fields} in
/-- Fields that are there make an entry. -/
theorem ofFields_of_nonempty (nonempty : fields ≠ ∅) :
    ofFields fields deadline = some ⟨.hash fields nonempty, deadline⟩ := dif_pos nonempty

end Entries

/-- Put an entry under a key, or remove the key. -/
def put (store : Keyspace) (key : String) : Option Entry → Keyspace
  | none => store.erase key
  | some entry => store.insert key entry

/-- A write changes one key. -/
@[simp] theorem lookup_put (store : Keyspace) (key query : String) (entry : Option Entry) :
    (put store key entry).lookup query = if query = key then entry else store.lookup query := by
  cases entry with
  | none => exact lookup_erase_if store key query
  | some entry => exact lookup_insert_if store key query entry

/-- Drop the keys whose deadline has passed. -/
def expireUntil (store : Keyspace) (time : ℕ) : Keyspace :=
  FiniteMap.filter (fun _ entry => ∀ deadline ∈ entry.deadline, time ≤ deadline) store

/-- When time passes, the keys whose deadline is over are gone. -/
theorem lookup_expireUntil (store : Keyspace) (time : ℕ) (key : String) :
    (store.expireUntil time).lookup key =
      (store.lookup key).filter fun entry => ∀ deadline ∈ entry.deadline, time ≤ deadline :=
  lookup_filter _ store key

/-- What has no deadline lasts. -/
theorem filter_lasting {entry : Option Entry} (lasts : deadlineOf entry = none) (time : ℕ) :
    entry.filter (fun entry => ∀ deadline ∈ entry.deadline, time ≤ deadline) = entry := by
  cases entry with
  | none => rfl
  | some entry =>
      have never : entry.deadline = none := lasts
      simp [Option.filter_some, never]

/-! ## Patterns -/

/-- The text without what it starts with. -/
def stripPrefix (first text : String) : Option String :=
  (text.toList.dropPrefix? first.toList).map .ofList

/-- The text without what it ends with. -/
def stripSuffix (last text : String) : Option String :=
  (text.toList.dropSuffix? last.toList).map .ofList

/-- A text starts with another one exactly if a rest follows it. -/
theorem stripPrefix_eq_some {first text rest : String} :
    stripPrefix first text = some rest ↔ text = first ++ rest := by
  simp only [stripPrefix, Option.map_eq_some_iff, List.dropPrefix?_eq_some_iff, beq_iff_eq,
    exists_eq_right]
  constructor
  · rintro ⟨chars, same, rfl⟩
    rw [← String.toList_inj, String.toList_append, String.toList_ofList, same]
  · intro same
    exact ⟨rest.toList, by rw [same, String.toList_append], String.ofList_toList⟩

/-- A text ends with another one exactly if a rest precedes it. -/
theorem stripSuffix_eq_some {last text rest : String} :
    stripSuffix last text = some rest ↔ text = rest ++ last := by
  simp only [stripSuffix, Option.map_eq_some_iff, List.dropSuffix?_eq_some_iff, beq_iff_eq,
    exists_eq_right]
  constructor
  · rintro ⟨chars, same, rfl⟩
    rw [← String.toList_inj, String.toList_append, String.toList_ofList, same]
  · intro same
    exact ⟨rest.toList, by rw [same, String.toList_append], String.ofList_toList⟩

/-- A pattern of `SCAN`, `first*last`, whose two parts stand for themselves. -/
structure Pattern where
  first : String
  last : String

/-- What a text that matches has in the place of the star. -/
def Pattern.star (pattern : Pattern) (text : String) : Option String :=
  (stripPrefix pattern.first text).bind (stripSuffix pattern.last)

/-- The star of a pattern matches what stands between its two ends. -/
theorem Pattern.star_eq_some {pattern : Pattern} {text rest : String} :
    pattern.star text = some rest ↔ text = pattern.first ++ (rest ++ pattern.last) := by
  simp only [star, Option.bind_eq_some_iff, stripPrefix_eq_some, stripSuffix_eq_some]
  constructor
  · rintro ⟨_, rfl, rfl⟩
    rfl
  · intro same
    exact ⟨_, same, rfl⟩

/-- The keys that match a pattern. -/
def matching (store : Keyspace) (pattern : Pattern) : Finset String :=
  store.keys.filter fun key => (pattern.star key).isSome

/-! ## Commands -/

/-- A `SCAN` cursor: `none` starts an iteration, and a later cursor stands for the keys still owed
to it, those present since it started and not yet returned. -/
abbrev Cursor := Option (Finset String)

/-- The commands. -/
inductive Command
  | ping
  | exists (key : String)
  | get (key : String)
  | setNx (key value : String) (expiryMs : Option ℕ)
  | del (key : String)
  | expire (key : String) (seconds : ℕ)
  | hget (key field : String)
  | hgetall (key : String)
  | hset (key : String) (values : List (String × String))
  | sismember (key member : String)
  | sadd (key member : String)
  | srem (key member : String)
  | scard (key : String)
  | smembers (key : String)
  | zscore (key member : String)
  | zadd (key member : String) (score : ℤ)
  | zincrby (key member : String) (delta : ℤ)
  | zrem (key member : String)
  | zrangeWithScores (key : String)
  | zrangeByScore (key : String) (min : ℤ)
  | zremrangeByScore (key : String) (max : ℤ)
  | scan (pattern : Pattern) (cursor : Cursor)

/-- What a command replies when it does not fail. -/
@[reducible] def Command.Answer : Command → Type
  | .ping | .hset .. | .sadd .. | .zadd .. | .zincrby .. | .zrem .. | .zremrangeByScore .. => Unit
  | .exists _ | .setNx .. | .expire .. | .sismember .. => Bool
  | .get _ | .hget .. => Option String
  | .del _ | .srem .. | .scard _ => ℕ
  | .hgetall _ => List (String × String)
  | .smembers _ | .zrangeByScore .. => List String
  | .zscore .. => Option ℤ
  | .zrangeWithScores _ => List (String × ℤ)
  | .scan .. => List String × Cursor

/-- What a command replies. -/
@[reducible] def Command.Reply (command : Command) : Type := Except WrongType command.Answer

/-- The list has the entries of the map, in some order. -/
def Lists {Item : Type} (items : List (String × Item)) (map : Map String Item) : Prop :=
  (items : Multiset (String × Item)) = map.entries.map fun entry => (entry.1, entry.2)

/-- The map that a client makes of a list of entries. -/
def collect {Item : Type} (items : List (String × Item)) : Map String Item :=
  (items.map fun entry => (⟨entry.1, entry.2⟩ : Σ _ : String, Item)).toFinmap

/-- A listing of a map contains exactly its entries. -/
theorem Lists.mem_iff {Item : Type} {items : List (String × Item)} {map : Map String Item}
    (lists : Lists items map) {name : String} {item : Item} :
    (name, item) ∈ items ↔ map.lookup name = some item := by
  rw [← Multiset.mem_coe, show (items : Multiset (String × Item)) = _ from lists,
    Multiset.mem_map, Finmap.lookup_eq_some_iff]
  constructor
  · rintro ⟨⟨_, _⟩, member, same⟩
    cases same
    exact member
  · intro member
    exact ⟨_, member, rfl⟩

/-- A client that collects the entries of a map has the map. -/
theorem Lists.collect_eq {Item : Type} {items : List (String × Item)} {map : Map String Item}
    (lists : Lists items map) : collect items = map := by
  have names : (items.map Prod.fst).Nodup := by
    have same : ((items.map Prod.fst : List String) : Multiset String) = map.entries.keys := by
      rw [← Multiset.map_coe, show (items : Multiset (String × Item)) = _ from lists,
        Multiset.map_map]
      rfl
    rw [← Multiset.coe_nodup, same]
    exact Multiset.nodup_keys.mpr map.nodupKeys
  have distinct : (items.map fun entry => (⟨entry.1, entry.2⟩ : Σ _ : String, Item)).NodupKeys := by
    rw [List.NodupKeys, List.keys, List.map_map]
    exact names
  refine Finmap.ext_lookup fun name => Option.ext fun item => ?_
  rw [collect, Finmap.dlookup_list_toFinmap, ← Option.mem_def, List.mem_dlookup_iff distinct,
    ← lists.mem_iff, List.mem_map]
  constructor
  · rintro ⟨⟨_, _⟩, member, same⟩
    cases same
    exact member
  · intro member
    exact ⟨_, member, rfl⟩

/-- Maps that agree after their values are changed have the same changed entries. -/
theorem map_entries_congr {Left Right Common : Type} {change : Left → Common}
    {alter : Right → Common} {left : Map String Left} {right : Map String Right}
    (same : ∀ name, (left.lookup name).map change = (right.lookup name).map alter) :
    left.entries.map (fun entry => (entry.1, change entry.2)) =
      right.entries.map fun entry => (entry.1, alter entry.2) := by
  have distinct {Item : Type} (map : Map String Item) (alter : Item → Common) :
      (map.entries.map fun entry => (entry.1, alter entry.2)).Nodup := by
    refine Multiset.Nodup.of_map Prod.fst ?_
    rw [Multiset.map_map]
    exact Multiset.nodup_keys.mpr map.nodupKeys
  have member {Item : Type} (map : Map String Item) (alter : Item → Common) (name : String)
      (value : Common) : (name, value) ∈ map.entries.map (fun entry => (entry.1, alter entry.2)) ↔
        (map.lookup name).map alter = some value := by
    rw [Multiset.mem_map, Option.map_eq_some_iff]
    constructor
    · rintro ⟨⟨_, item⟩, present, equal⟩
      cases equal
      exact ⟨item, Finmap.lookup_eq_some_iff.mpr present, rfl⟩
    · rintro ⟨item, found, rfl⟩
      exact ⟨⟨name, item⟩, Finmap.lookup_eq_some_iff.mp found, rfl⟩
  refine (Multiset.Nodup.ext (distinct left change) (distinct right alter)).mpr fun entry => ?_
  rw [member, member, same]

/-- One page of a `SCAN` iteration. -/
def Scans (store : Keyspace) (pattern : Pattern) (cursor : Cursor) (page : List String)
    (next : Cursor) : Prop :=
  (∀ key ∈ page, key ∈ store.matching pattern) ∧
    let owed := (cursor.map (· ∩ store.matching pattern)).getD (store.matching pattern) \
      page.toFinset
    match next with
    | none => owed = ∅
    | some rest => rest = owed

/-- A command that needs what is under its key to be of some type fails, without effect, when it
is not. -/
def Needs {α β : Type} (found : Except WrongType α) (store : Keyspace)
    (effect : α → β → Keyspace → Prop) (reply : Except WrongType β) (after : Keyspace) : Prop :=
  match found with
  | .error error => reply = .error error ∧ after = store
  | .ok value => ∃ answer, reply = .ok answer ∧ effect value answer after

variable (now : ℕ)

/-- The effect of a command at a time in milliseconds. The order of an unordered reply is not
fixed. -/
def exec : (command : Command) → Keyspace → command.Reply → Keyspace → Prop
  | .ping, store, reply, after => reply = .ok () ∧ after = store
  | .exists key, store, reply, after => reply = .ok (store.lookup key).isSome ∧ after = store
  | .get key, store, reply, after =>
      Needs (textOf (store.lookup key)) store
        (fun text answer after => answer = text ∧ after = store) reply after
  | .setNx key value expiryMs, store, reply, after =>
      reply = .ok (store.lookup key).isNone ∧
        after = if (store.lookup key).isNone then
          store.put key (some ⟨.string value, expiryMs.map (now + ·)⟩) else store
  | .del key, store, reply, after =>
      reply = .ok (if (store.lookup key).isSome then 1 else 0) ∧ after = store.put key none
  | .expire key seconds, store, reply, after =>
      reply = .ok (store.lookup key).isSome ∧
        after = store.put key ((store.lookup key).map
          ({ · with deadline := some (now + seconds * 1000) }))
  | .hget key field, store, reply, after =>
      Needs (fieldsOf (store.lookup key)) store
        (fun fields answer after => answer = fields.lookup field ∧ after = store) reply after
  | .hgetall key, store, reply, after =>
      Needs (fieldsOf (store.lookup key)) store
        (fun fields answer after => Lists answer fields ∧ after = store) reply after
  | .hset key values, store, reply, after =>
      Needs (fieldsOf (store.lookup key)) store (fun fields _ after =>
        after = store.put key (ofFields
          (values.foldl (fun fields entry => fields.insert entry.1 entry.2) fields)
          (deadlineOf (store.lookup key)))) reply after
  | .sismember key member, store, reply, after =>
      Needs (membersOf (store.lookup key)) store
        (fun members answer after => answer = decide (member ∈ members) ∧ after = store) reply after
  | .sadd key member, store, reply, after =>
      Needs (membersOf (store.lookup key)) store (fun members _ after =>
        after = store.put key (ofMembers (insert member members)
          (deadlineOf (store.lookup key)))) reply after
  | .srem key member, store, reply, after =>
      Needs (membersOf (store.lookup key)) store (fun members answer after =>
        answer = (if member ∈ members then 1 else 0) ∧ after = store.put key
          (ofMembers (members.erase member) (deadlineOf (store.lookup key)))) reply after
  | .scard key, store, reply, after =>
      Needs (membersOf (store.lookup key)) store
        (fun members answer after => answer = members.card ∧ after = store) reply after
  | .smembers key, store, reply, after =>
      Needs (membersOf (store.lookup key)) store
        (fun members answer after => Enumerates answer members ∧ after = store) reply after
  | .zscore key member, store, reply, after =>
      Needs (scoresOf (store.lookup key)) store
        (fun scores answer after => answer = scores.lookup member ∧ after = store) reply after
  | .zadd key member score, store, reply, after =>
      Needs (scoresOf (store.lookup key)) store (fun scores _ after =>
        after = store.put key
          (ofScores (scores.insert member score) (deadlineOf (store.lookup key)))) reply after
  | .zincrby key member delta, store, reply, after =>
      Needs (scoresOf (store.lookup key)) store (fun scores _ after =>
        after = store.put key (ofScores
          (scores.insert member ((scores.lookup member).getD 0 + delta))
          (deadlineOf (store.lookup key)))) reply after
  | .zrem key member, store, reply, after =>
      Needs (scoresOf (store.lookup key)) store (fun scores _ after =>
        after = store.put key
          (ofScores (scores.erase member) (deadlineOf (store.lookup key)))) reply after
  | .zrangeWithScores key, store, reply, after =>
      Needs (scoresOf (store.lookup key)) store
        (fun scores answer after => Lists answer scores ∧ after = store) reply after
  | .zrangeByScore key min, store, reply, after =>
      Needs (scoresOf (store.lookup key)) store (fun scores answer after =>
        Enumerates answer (FiniteMap.filter (fun _ score => min ≤ score) scores).keys ∧
          after = store) reply after
  | .zremrangeByScore key max, store, reply, after =>
      Needs (scoresOf (store.lookup key)) store (fun scores _ after =>
        after = store.put key (ofScores (FiniteMap.filter (fun _ score => max < score) scores)
          (deadlineOf (store.lookup key)))) reply after
  | .scan pattern cursor, store, reply, after =>
      ∃ page next, reply = .ok (page, next) ∧ Scans store pattern cursor page next ∧ after = store

/-! ## Scripts -/

/-- Why a script fails. -/
inductive Failure
  | wrongType
  /-- The script reads a value that it cannot decode. -/
  | undecodable
  deriving DecidableEq

/-- A program of commands; the first that fails ends it. -/
abbrev Script := ExceptT Failure (Concurrency.Program Command Command.Reply)

/-- `redis.call`. -/
def call (command : Command) : Script command.Answer :=
  .mk (.call command fun reply => .ret (reply.mapError fun _ => .wrongType))

/-- The script runs as one step. -/
def eval {α : Type} (script : Script α) (before : Keyspace) (result : Except Failure α)
    (after : Keyspace) : Prop :=
  script.run.Runs (exec now) before result after

section Scripts

variable {now} {α β : Type} {before after : Keyspace}

/-- A script that is one command does what the command does; a key of the wrong type is its
error. -/
theorem eval_call {command : Command} {result : Except Failure command.Answer} :
    eval now (call command) before result after ↔
      ∃ reply, exec now command before reply after ∧
        result = reply.mapError fun _ => .wrongType := by
  constructor
  · rintro ⟨reply, _, step, rfl, rfl⟩
    exact ⟨reply, step, rfl⟩
  · rintro ⟨reply, step, rfl⟩
    exact ⟨reply, after, step, rfl, rfl⟩

/-- A command that is followed by others. -/
theorem eval_call_bind {command : Command} {rest : command.Answer → Script β}
    {result : Except Failure β} :
    eval now (call command >>= rest) before result after ↔
      ∃ reply middle, exec now command before reply middle ∧
        match reply with
        | .ok answer => eval now (rest answer) middle result after
        | .error _ => result = .error .wrongType ∧ after = middle := by
  refine Concurrency.Program.runs_except_bind.trans ⟨?_, ?_⟩
  · rintro ⟨value, middle, first, second⟩
    obtain ⟨reply, step, rfl⟩ := eval_call.mp first
    refine ⟨reply, middle, step, ?_⟩
    cases reply with
    | ok answer => exact second
    | error error => exact second
  · rintro ⟨reply, middle, step, second⟩
    refine ⟨_, middle, eval_call.mpr ⟨reply, step, rfl⟩, ?_⟩
    cases reply with
    | ok answer => exact second
    | error error => exact second

/-- A script that is a value does nothing. -/
@[simp] theorem eval_pure {value : α} {result : Except Failure α} :
    eval now (pure value) before result after ↔ result = .ok value ∧ after = before := Iff.rfl

end Scripts

end Keyspace
