import Callifornia.Concurrency.Refinement
import Callifornia.Deployment.Pool
import Callifornia.Store.Keyed

/-! # The deployment over the keys of Redis

The same tasks, but the store is a keyspace, and each command is what the services send for it.
Whatever this deployment does, the deployment over the typed store does, as long as no session
can be mistaken for a lock and the numbers of the records are short enough for the script:
every key holds what the code takes it to hold.
-/

namespace Callifornia

open Concurrency Concurrency.System FiniteMap Keyspace Signaling Store

/-- The command of a step names no session that can be mistaken for a lock, and writes no
record whose numbers are too long. -/
def Op.Proper : Op → Prop
  | .redis command => command.Proper
  | _ => True

namespace Deployment

/-- The state of the deployment over a keyspace. -/
structure KeyedWorld where
  keys : Keyspace
  /-- Everything but the store; nothing looks at the store in it. -/
  rest : World

namespace KeyedWorld

/-- Nobody has used the deployment yet. -/
def fresh : KeyedWorld := ⟨∅, World.fresh⟩

variable (payloads : Payloads)

/-- The effect of a step when nothing fails except where the step says so. -/
def exec : (op : Op) → KeyedWorld → op.Reply → KeyedWorld → Prop
  | .redis command, before, reply, after =>
      ∃ result, eval before.rest.now (command.script payloads) before.keys result after.keys ∧
        reply = result.mapError (fun _ => .redis) ∧ after.rest = before.rest
  | op, before, reply, after =>
      World.exec op before.rest reply after.rest ∧ after.keys = before.keys

/-- A step. The effect of a call that fails may be lost, or only its reply. -/
inductive Steps : (op : Op) → KeyedWorld → op.Reply → KeyedWorld → Prop
  | succeeds {op : Op} {before after : KeyedWorld} {reply : op.Reply}
      (effect : exec payloads op before reply after) : Steps op before reply after
  | refused {op : Op} {before : KeyedWorld} {reply : op.Reply} (fails : Fails op reply) :
      Steps op before reply before
  | unanswered {op : Op} {before after : KeyedWorld} {reply answer : op.Reply}
      (fails : Fails op reply) (effect : exec payloads op before answer after) :
      Steps op before reply after

/-- What changes without a task. -/
inductive Changes : KeyedWorld → KeyedWorld → Prop
  | elapse {keys : Keyspace} {rest : World} {time : ℕ} (later : rest.now ≤ time) :
      Changes ⟨keys, rest⟩ ⟨keys.expireUntil time, { rest with now := time }⟩
  | restart {keys : Keyspace} {rest : World} (node : NodeId) :
      Changes ⟨keys, rest⟩ ⟨keys, rest.setNode node { peers := ∅, sessions := ⟨∅, ∅⟩ }⟩
  | lose {keys : Keyspace} {rest : World} {kept : Finset (Address × RoomId × Nickname)}
      (part : kept ⊆ rest.sfuPeers) : Changes ⟨keys, rest⟩ ⟨keys, { rest with sfuPeers := kept }⟩

/-- The keys are those of the typed store, and everything else is the same. -/
def Types (keyed : KeyedWorld) (world : World) : Prop :=
  Represents payloads keyed.keys world.redis ∧ world = { keyed.rest with redis := world.redis }

end KeyedWorld

/-- The deployment over a keyspace. -/
def keyedSystem (payloads : Payloads) (setup : Setup) : System Op Op.Reply where
  State := KeyedWorld
  Phase := Knowledge
  Result := Unit
  exec op before reply after :=
    KeyedWorld.Steps payloads op before reply after ∧ setup.Possible op reply
  advance := advance
  start before _ phase program after := ∃ task, setup.Runs task ∧ phase = .initial task ∧
    program = task.program ∧ after = { before with rest := opened before.rest task }
  finish world _ _ := world
  discard _ _ := True
  environment before _ after := KeyedWorld.Changes before after

/-- The deployment over a keyspace before anything happens. -/
def keyedLaunched (payloads : Payloads) (setup : Setup) : (keyedSystem payloads setup).Pool :=
  ⟨KeyedWorld.fresh, []⟩

variable {payloads : Payloads} {setup : Setup} {op : Op} {keyed keyed' : KeyedWorld}
  {world before after : World}

/-- Nothing but Redis commands looks at the store. -/
theorem exec_withRedis {reply : op.Reply} (other : ¬ op.IsRedis fun _ => True) (store : Redis)
    (effect : World.exec op before reply after) :
    World.exec op { before with redis := store } reply { after with redis := store } := by
  cases op with
  | redis => exact absurd trivial other
  | peers | sessions =>
      obtain ⟨value, effect, rfl⟩ := effect
      exact ⟨value, effect, rfl⟩
  | trySend sender message =>
      obtain ⟨rfl, rfl⟩ := effect
      refine ⟨rfl, ?_⟩
      change _ = if before.Accepts sender then _ else _
      split <;> rfl
  | sendMessage connection message =>
      rw [show after = _ from effect]
      change _ = if reply = true then _ else _
      split <;> rfl
  | createPeer =>
      rcases effect with ⟨rfl, room, name, free, rfl⟩ | ⟨failed, rfl⟩
      · exact .inl ⟨rfl, room, name, free, rfl⟩
      · exact .inr ⟨failed, rfl⟩
  | setContext =>
      rw [show after = _ from effect]
      rfl
  | pingSignaling | pingSfu =>
      rw [show after = _ from effect]
      rfl
  | outOfFuel => exact reply.elim
  | _ =>
      obtain ⟨first, rfl⟩ := effect
      exact ⟨first, rfl⟩

namespace KeyedWorld.Types

/-- A step that is no command to Redis is the same step over the typed store. -/
theorem other {reply : op.Reply} (types : keyed.Types payloads world)
    (other : ¬ op.IsRedis fun _ => True) (effect : World.exec op keyed.rest reply keyed'.rest)
    (kept : keyed'.keys = keyed.keys) :
    ∃ world', World.exec op world reply world' ∧ keyed'.Types payloads world' := by
  obtain ⟨represents, same⟩ := types
  refine ⟨{ keyed'.rest with redis := world.redis }, ?_, ?_, rfl⟩
  · rw [same]
    exact exec_withRedis other world.redis effect
  · rw [kept]
    exact represents

/-- **Step lemma.** What a step does to the keys, it may do to the typed store. -/
theorem exec {reply : op.Reply} (proper : op.Proper) (types : keyed.Types payloads world)
    (effect : KeyedWorld.exec payloads op keyed reply keyed') :
    ∃ world', World.exec op world reply world' ∧ keyed'.Types payloads world' := by
  cases op with
  | redis command =>
      obtain ⟨represents, same⟩ := types
      obtain ⟨result, steps, rfl, kept⟩ := effect
      obtain ⟨value, redis, rfl, effect, represents⟩ := represents.answers proper steps
      refine ⟨{ world with redis }, ⟨value, redis, ?_, rfl, rfl⟩, represents, ?_⟩
      · rw [same]
        exact effect
      · rw [same, kept]
  | _ => exact types.other id effect.1 effect.2

/-- A step on the keys is a step on the typed store, also when it fails or its reply is lost. -/
theorem steps {reply : op.Reply} (proper : op.Proper) (types : keyed.Types payloads world)
    (step : KeyedWorld.Steps payloads op keyed reply keyed') :
    ∃ world', Deployment.Steps op world reply world' ∧ keyed'.Types payloads world' := by
  cases step with
  | succeeds effect =>
      obtain ⟨world', effect, types⟩ := types.exec proper effect
      exact ⟨world', .succeeds effect, types⟩
  | refused fails => exact ⟨world, .refused fails, types⟩
  | unanswered fails effect =>
      obtain ⟨world', effect, types⟩ := types.exec proper effect
      exact ⟨world', .unanswered fails effect, types⟩

/-- What changes without a task changes both stores alike, expiry included. -/
theorem changes (types : keyed.Types payloads world) (changed : KeyedWorld.Changes keyed keyed') :
    ∃ world', Deployment.Changes world world' ∧ keyed'.Types payloads world' := by
  obtain ⟨represents, same⟩ := types
  cases changed with
  | @elapse keys rest time later =>
      refine ⟨world.elapse time, .elapse ?_, represents.expireUntil time, ?_⟩
      · rw [same]
        exact later
      · rw [same]
        rfl
  | restart node =>
      refine ⟨world.setNode node { peers := ∅, sessions := ⟨∅, ∅⟩ }, .restart node, represents, ?_⟩
      rw [same]
      rfl
  | @lose keys rest kept part =>
      refine ⟨{ world with sfuPeers := kept }, .lose ?_, represents, ?_⟩
      · rw [same]
        exact part
      · rw [same]

/-- A connection that opens changes neither store. -/
theorem opened (types : keyed.Types payloads world) (task : Task) :
    ({ keyed with rest := opened keyed.rest task } : KeyedWorld).Types payloads
      (Deployment.opened world task) := by
  obtain ⟨represents, same⟩ := types
  rw [same]
  cases task <;> exact ⟨represents, rfl⟩

end KeyedWorld.Types

/-- The keyed deployment refines the typed one as long as its commands are proper. -/
theorem refines_keyed : Refines (keyedSystem payloads setup) (system setup) id id Op.Proper
    (KeyedWorld.Types payloads) where
  exec proper types effect := by
    obtain ⟨world', step, types⟩ := types.steps proper effect.1
    exact ⟨world', ⟨step, effect.2⟩, types⟩
  advance _ _ _ := rfl
  start types started := by
    obtain ⟨task, runs, rfl, rfl, rfl⟩ := started
    exact ⟨_, ⟨task, runs, rfl, id_map _, rfl⟩, types.opened task⟩
  finish types := types
  discard _ _ := trivial
  environment types changed := types.changes changed

/-- The task as one of the deployment over the typed store. -/
abbrev typed (thread : (keyedSystem payloads setup).Thread) : (system setup).Thread :=
  @Thread.view _ _ (keyedSystem payloads setup) (system setup) id id thread

/-- **The keys refine the store**: every run of the deployment over a keyspace, in which no session
can be mistaken for a lock and the numbers of the records are short, is a run of the deployment
over the typed store with the same tasks. No command meets a value of another type, and no record
is unreadable. -/
theorem keyed_refines {pool : (keyedSystem payloads setup).Pool}
    (run : Reaches (only Op.Proper) (keyedLaunched payloads setup) pool) :
    (∃ world, Reaches unguarded (launched setup) ⟨world, pool.threads.map typed⟩ ∧
      pool.state.Types payloads world) ∧
    ∀ (command : Store.Command) (now : ℕ) (result : Except Failure command.Reply)
      (after : Keyspace),
      command.Proper → eval now (command.script payloads) pool.state.keys result after →
        ∃ reply, result = .ok reply := by
  have fresh : KeyedWorld.fresh.Types payloads World.fresh := ⟨.empty payloads, rfl⟩
  obtain ⟨world, reached, types⟩ := refines_keyed.reaches fresh run
  refine ⟨⟨world, reached, types⟩, fun command now result after proper steps => ?_⟩
  obtain ⟨reply, -, same, -⟩ := types.1.answers proper steps
  exact ⟨reply, same⟩

/-! ## A keyspace that is seeded -/

/-- The parts of the object between its quotes. -/
def partsOf (record : SfuInstance) : List String :=
  ["\x7b", "instance_id", ":", record.instanceId, ",", "grpc_addr", ":", record.grpcAddr, ",",
    "max_rooms", ":" ++ toString record.maxRooms ++ ",", "alive",
    ":" ++ toString record.alive ++ ",", "state", ":", record.state, ",", "last_ping_unix",
    ":" ++ toString record.lastPingUnix ++ ",", "idle_since_unix",
    ":" ++ toString record.idleSinceUnix ++ "\x7d"]

/-- A part without its first and its last character. -/
def inner (part : String) : List Char := (part.toList.drop 1).dropLast

def natural (digits : List Char) : ℕ := Nat.ofDigitChars 10 digits 0

def integer : List Char → ℤ
  | '-' :: digits => -natural digits
  | digits => natural digits

def recordOf : List String → Option SfuInstance
  | [_, _, _, instanceId, _, _, _, grpcAddr, _, _, maxRooms, _, alive, _, _, state, _, _, lastPing,
      _, idleSince] =>
      some
        { instanceId, grpcAddr, state
          maxRooms := natural (inner maxRooms)
          alive := String.ofList (inner alive) = "true"
          lastPingUnix := integer (inner lastPing)
          idleSinceUnix := integer (inner idleSince) }
  | _ => none

/-- The inner part of a quoted text. -/
theorem inner_append (text last : String) (single : last.toList.length = 1) :
    inner (":" ++ text ++ last) = text.toList := by
  obtain ⟨char, same⟩ := List.length_eq_one_iff.mp single
  simp [inner, String.toList_append, same]

/-- A number in digits is read back. -/
theorem natural_toString (value : ℕ) : natural (toString value).toList = value := by
  have digits : (toString value).toList = Nat.toDigits 10 value := Nat.toList_repr
  rw [natural, digits, Nat.ofDigitChars_ten_toDigits]

/-- An integer in digits is read back. -/
theorem integer_toString (value : ℤ) : integer (toString value).toList = value := by
  cases value with
  | ofNat value =>
      have same : (toString (Int.ofNat value)).toList = (toString value).toList := rfl
      have plain : ∀ digits, (toString value).toList ≠ '-' :: digits := by
        intro digits signed
        have listed : '-' ∈ Nat.toDigits 10 value := by
          rw [← Nat.toList_repr]
          exact signed ▸ List.mem_cons_self
        exact absurd (Nat.isDigit_of_mem_toDigits (by decide) (by decide) listed) (by decide)
      rw [same, integer]
      · rw [natural_toString]
        rfl
      · exact fun digits signed => plain digits signed
  | negSucc value =>
      have same : (toString (Int.negSucc value)).toList = '-' :: (toString (value + 1)).toList :=
        String.toList_append
      rw [same, integer, natural_toString]
      rfl

/-- The text of the object. -/
def openText (record : SfuInstance) : String :=
  .ofList (((partsOf record).flatMap fun part => TokenFormat.quote '"' '\\' part.toList).dropLast)

/-- The record of an object. -/
def readText (payload : String) : Option SfuInstance :=
  recordOf (TokenFormat.unquote '"' '\\' [] (payload.toList ++ ['"']))

/-- The text of a record is read back as the record. -/
theorem readText_openText (record : SfuInstance) : readText (openText record) = some record := by
  have parts : partsOf record ≠ [] := List.cons_ne_nil _ _
  rw [readText, openText, String.toList_ofList, TokenFormat.dropLast_flatMap parts,
    TokenFormat.unquote_flatMap (by decide)]
  cases record with
  | mk instanceId grpcAddr maxRooms alive state lastPing idleSince =>
      simp only [partsOf, recordOf, inner_append _ "," rfl, inner_append _ "\x7d" rfl,
        natural_toString, integer_toString, String.ofList_toList]
      cases alive <;> rfl

/-- Records are written as objects. -/
def openPayloads : Payloads where
  encode := openText
  reencode := openText
  decode := readText
  decode_encode record _ := readText_openText record
  decode_reencode record _ := readText_openText record

/-- The inventory has one SFU. -/
def oneSfu : Setup where
  inventory instanceId := if instanceId = "sfu-1" then some ("http://127.0.0.1:50051", 1) else none
  nodes := ∅
  dead := ∅

/-- The record that the seeding writes. -/
def seeded : SfuInstance := ⟨"sfu-1", "http://127.0.0.1:50051", 1, false, "unknown", 0, 0⟩

/-- The seeded record keeps its integers in JSON. -/
theorem seeded_exact : seeded.Exact := by decide

/-- Any reply may come. -/
theorem oneSfu_possible {reply : op.Reply} : oneSfu.Possible op reply := by
  cases op with
  | pingSfu sfuAddr => exact fun _ => Set.notMem_empty sfuAddr
  | _ => trivial

example : openText seeded = "\x7b\"instance_id\":\"sfu-1\",\"grpc_addr\":" ++
    "\"http://127.0.0.1:50051\",\"max_rooms\":1,\"alive\":false,\"state\":\"unknown\"," ++
    "\"last_ping_unix\":0,\"idle_since_unix\":0\x7d" := by
  decide +kernel

/-- The keys after the inventory is seeded. -/
def seededKeys : Keyspace :=
  ((∅ : Keyspace).put sfuInstancesKey
    (ofFields ((∅ : Map String String).insert "sfu-1" (openText seeded)) none)).put sfuRoomLoadKey
      (ofScores ((∅ : Map String ℤ).insert "sfu-1" 0) none)

/-- A run that seeds one SFU leaves its record under `sfu:instances`. -/
theorem exists_seeded : ∃ pool : (keyedSystem openPayloads oneSfu).Pool,
    Reaches (only Op.Proper) (keyedLaunched openPayloads oneSfu) pool ∧
      pool.state.keys = seededKeys := by
  have started : Step (only Op.Proper) (keyedLaunched openPayloads oneSfu)
      ⟨KeyedWorld.fresh,
        [⟨{}, (Task.seed [⟨"sfu-1", "http://127.0.0.1:50051", 1⟩]).program⟩]⟩ := by
    refine .start ⟨.seed _, ?_, rfl, rfl, rfl⟩
    unfold Setup.Runs
    decide
  have run : (Task.seed [⟨"sfu-1", "http://127.0.0.1:50051", 1⟩]).program.Runs
      (fun op before reply after => op.Proper ∧
        KeyedWorld.exec openPayloads op before reply after) KeyedWorld.fresh ()
      ⟨seededKeys, World.fresh⟩ := by
    refine ⟨0, KeyedWorld.fresh, ⟨trivial, ⟨rfl, rfl⟩, rfl⟩, ?_⟩
    refine ⟨.ok none, KeyedWorld.fresh, ⟨trivial, .ok none, ?_, rfl, rfl⟩, ?_⟩
    · exact eval_call_bind.mpr ⟨.ok none, ∅, ⟨none, rfl, rfl, rfl⟩, rfl, rfl⟩
    refine ⟨.ok (), ⟨(∅ : Keyspace).put sfuInstancesKey (ofFields
      ((∅ : Map String String).insert "sfu-1" (openText seeded)) none), World.fresh⟩,
      ⟨seeded_exact, .ok (), ?_, rfl, rfl⟩, ?_⟩
    · exact eval_call.mpr ⟨.ok (), ⟨(), rfl, rfl⟩, rfl⟩
    refine ⟨.ok none, _, ⟨trivial, .ok none, ?_, rfl, rfl⟩, ?_⟩
    · exact eval_call.mpr ⟨.ok none, ⟨none, rfl, rfl, rfl⟩, rfl⟩
    refine ⟨.ok (), ⟨seededKeys, World.fresh⟩, ⟨trivial, .ok (), ?_, rfl, rfl⟩, rfl, rfl⟩
    exact eval_call.mpr ⟨.ok (), ⟨(), rfl, rfl⟩, rfl⟩
  obtain ⟨last, reached⟩ := @reaches_alone _ _ (keyedSystem openPayloads oneSfu) Op.Proper _
    (fun _ _ _ _ step => ⟨step.1, .succeeds step.2, oneSfu_possible⟩) _ _ _ _ run {}
  exact ⟨_, .head started reached, rfl⟩

/-- After the seeding the typed deployment has made the same steps. -/
theorem keyed_refines_seeded : ∃ pool : (keyedSystem openPayloads oneSfu).Pool,
    pool.state.keys = seededKeys ∧
    (∃ world, Reaches unguarded (launched oneSfu) ⟨world, pool.threads.map typed⟩ ∧
      pool.state.Types openPayloads world) ∧
    ∀ (command : Store.Command) (now : ℕ) (result : Except Failure command.Reply)
      (after : Keyspace), command.Proper →
        eval now (command.script openPayloads) pool.state.keys result after →
          ∃ reply, result = .ok reply := by
  obtain ⟨pool, run, held⟩ := exists_seeded
  exact ⟨pool, held, keyed_refines run⟩

end Deployment

end Callifornia
