import Callifornia.Replay
import Callifornia.Sessions.Tasks

/-! # Well-formed session hashes

The connector creates the hash of a session with a nickname and a deadline. Every later
write keeps both, unless it finds the hash gone: `HSET` then creates one that has neither.
-/

namespace Callifornia.Sessions.WellFormed

open Concurrency Concurrency.System FiniteMap Store Signaling

/-- How far a run is. -/
inductive Phase
  /-- A request for a new session; the session whose deadline it has not set yet. -/
  | auth (creating : Option SessionId)
  | other
  deriving DecidableEq

def Phase.advance : Phase → (op : Op) → op.Reply → Phase
  | .auth none, .redis (.hset (.session sessionId) _ _), _ => .auth (some sessionId)
  | .auth (some _), .redis (.expire _ _), _ => .auth none
  | phase, _, _ => phase

/-- The phase in which a task starts. -/
def Phase.initial : SessionTask → Phase
  | .auth .. => .auth none
  | _ => .other

/-- Any number of tasks on any sessions, connections and nodes. Time passes, and keys expire. -/
def threads : Threads where
  Phase := Phase
  Ghost := Unit
  Result := Unit
  advance := Phase.advance
  start before _ phase program after := after = before ∧
    ∃ task : SessionTask, phase = .initial task ∧ program = task.program
  environment before _ after := ∃ time, before.1.now ≤ time ∧ after.1 = before.1.elapse time

/-- The hash has a nickname. -/
def Named (hash : Hash) : Prop := ∃ nickname ∈ hash.get "nickname", nickname ≠ ""

instance : DecidablePred Named := fun hash =>
  inferInstanceAs (Decidable (∃ nickname ∈ hash.get "nickname", nickname ≠ ""))

/-- The hash has a nickname and will expire. -/
structure Formed (session : SessionHash) : Prop where
  named : Named session.hash
  timed : session.deadline.isSome

instance : DecidablePred Formed := fun session =>
  decidable_of_iff (Named session.hash ∧ session.deadline.isSome = true)
    ⟨fun formed => ⟨formed.1, formed.2⟩, fun formed => ⟨formed.named, formed.timed⟩⟩

/-- Every session hash has a nickname and will expire. -/
def AllFormed (world : World) : Prop :=
  ∀ sessionId, ∀ session ∈ world.redis.sessions.lookup sessionId, Formed session

/-- A field is written only to a session hash that exists, except for the first one of
a new session. -/
def Allowed (world : World) : Phase → Op → Prop
  | .auth none, _ => True
  | _, .redis (.hset (.session sessionId) _ _) => sessionId ∈ world.redis.sessions
  | _, _ => True

def guard : threads.system.Guard := fun state phase op _ => Allowed state.1 phase op

/-- Only a hash that is being created has no deadline. -/
structure Sound (world : World) (phases : Multiset Phase) : Prop where
  named : ∀ sessionId, ∀ session ∈ world.redis.sessions.lookup sessionId, Named session.hash
  timed : ∀ sessionId, ∀ session ∈ world.redis.sessions.lookup sessionId,
    session.deadline.isSome ∨ .auth (some sessionId) ∈ phases

def outline : Outline threads.system where
  guard := guard
  inv state := Sound state.1
  asserts _ _ _ := True

variable {world after : World} {phase : Phase} {others : Multiset Phase} {sessionId : SessionId}

/-! ## Steps on hashes that exist -/

/-- No hash is new, and none has lost its nickname or its deadline. -/
def Keeps (before after : World) : Prop :=
  ∀ sessionId, ∀ session ∈ after.redis.sessions.lookup sessionId,
    ∃ old ∈ before.redis.sessions.lookup sessionId,
      (Named old.hash → Named session.hash) ∧ (old.deadline.isSome → session.deadline.isSome)

/-- A step that leaves the sessions keeps them. -/
theorem Keeps.of_eq (same : after.redis.sessions = world.redis.sessions) : Keeps world after := by
  intro sessionId session found
  rw [same] at found
  exact ⟨session, found, id, id⟩

/-- Any field but the nickname leaves a nickname in place. -/
theorem Named.set {hash : Hash} (named : Named hash) {field value : String}
    (other : field ≠ "nickname") : Named (Hash.set (some hash) field value) := by
  obtain ⟨nickname, found, filled⟩ := named
  refine ⟨nickname, ?_, filled⟩
  rw [Hash.get_set, if_neg other.symm]
  exact found

/-- The step writes no nickname. -/
def NamesNone : Op → Prop
  | .redis (.hset (.session _) field _) => field ≠ "nickname"
  | _ => True

/-- An ordinary operation names no session. -/
theorem namesNone_of_ordinary {op : Op} (ordinary : op.Ordinary) : NamesNone op := by
  unfold NamesNone
  split
  · exact ordinary
  · trivial

/-- A step that writes no nickname keeps the hashes, if it writes only to one that exists. -/
theorem keeps_of_namesNone {op : Op} {reply : op.Reply} (step : World.exec op world reply after)
    (plain : NamesNone op) (allowed : Allowed world .other op) : Keeps world after := by
  by_cases writes : op.IsRedis Command.WritesSessions
  swap
  · exact .of_eq ((World.exec_keepsRedis step).sessions writes)
  cases op with
  | redis command =>
      obtain ⟨value, redis, effect, -, rfl⟩ := step
      cases command with
      | hset key field value =>
          cases key with
          | binding => exact writes.elim
          | session own =>
              obtain rfl : redis = _ := effect
              obtain ⟨old, exists'⟩ := Finmap.mem_iff.mp allowed
              intro query session found
              rw [Redis.hset, lookup_insert_if] at found
              split at found
              · rename_i same
                subst same
                cases found
                rw [exists']
                exact ⟨old, rfl, fun named => named.set plain, id⟩
              · exact ⟨session, found, id, id⟩
      | del key =>
          obtain ⟨-, rfl⟩ := effect
          cases key with
          | binding => exact writes.elim
          | session own =>
              intro query session found
              rw [Redis.delHash, lookup_erase_if] at found
              split at found
              · cases found
              · exact ⟨session, found, id, id⟩
      | expire own seconds =>
          obtain ⟨-, rfl⟩ := effect
          intro query session found
          rw [lookup_adjust] at found
          split at found
          · rename_i same
            subst same
            obtain ⟨old, before, rfl⟩ := Option.map_eq_some_iff.mp found
            exact ⟨old, before, id, fun _ => rfl⟩
          · exact ⟨session, found, id, id⟩
      | _ => exact writes.elim
  | _ => exact writes.elim

namespace Sound

/-- A run moves on without finishing the hash it creates. -/
theorem keep {phase' : Phase} (sound : Sound world (phase ::ₘ others)) (keeps : Keeps world after)
    (creating : ∀ sessionId, phase = .auth (some sessionId) → phase' = .auth (some sessionId)) :
    Sound after (phase' ::ₘ others) where
  named sessionId session found := by
    obtain ⟨old, before, named, -⟩ := keeps sessionId session found
    exact named (sound.named sessionId old before)
  timed sessionId session found := by
    obtain ⟨old, before, -, timed⟩ := keeps sessionId session found
    refine (sound.timed sessionId old before).imp timed fun member => ?_
    rcases Multiset.mem_cons.mp member with own | member
    · rw [creating sessionId own.symm]
      exact Multiset.mem_cons_self _ _
    · exact Multiset.mem_cons_of_mem member

/-- A new session gets its nickname. -/
theorem create {nickname : Nickname} (sound : Sound world (.auth none ::ₘ others))
    (filled : nickname ≠ "") :
    Sound { world with redis := world.redis.hset (.session sessionId) "nickname" nickname }
      (.auth (some sessionId) ::ₘ others) where
  named query session found := by
    rw [Redis.hset, lookup_insert_if] at found
    split at found
    · cases found
      exact ⟨nickname, by rw [Hash.get_set, if_pos rfl]; rfl, filled⟩
    · exact sound.named query session found
  timed query session found := by
    rw [Redis.hset, lookup_insert_if] at found
    split at found
    · rename_i same
      subst same
      exact .inr (Multiset.mem_cons_self _ _)
    · refine (sound.timed query session found).imp_right fun member => ?_
      exact Multiset.mem_cons_of_mem ((Multiset.mem_cons.mp member).resolve_left nofun)

/-- A new session gets its deadline. -/
theorem expire {deadline : ℕ} (sound : Sound world (.auth (some sessionId) ::ₘ others)) :
    Sound { world with
      redis := { world.redis with
        sessions := adjust world.redis.sessions sessionId ({ · with deadline := some deadline }) } }
      (.auth none ::ₘ others) where
  named query session found := by
    rw [lookup_adjust] at found
    split at found
    · rename_i same
      subst same
      obtain ⟨old, before, rfl⟩ := Option.map_eq_some_iff.mp found
      exact sound.named query old before
    · exact sound.named query session found
  timed query session found := by
    rw [lookup_adjust] at found
    split at found
    · obtain ⟨old, -, rfl⟩ := Option.map_eq_some_iff.mp found
      exact .inl rfl
    · rename_i other
      refine (sound.timed query session found).imp_right fun member => ?_
      rcases Multiset.mem_cons.mp member with own | member
      · cases own
        exact absurd rfl other
      · exact Multiset.mem_cons_of_mem member

end Sound

/-! ## The tasks -/

/-- A step of a run that creates no session. -/
theorem other_step (op : Op) (phase : Phase) (plain : NamesNone op) (same : phase = .other)
    (state : World × Unit) (others : Multiset Phase) (sound : Sound state.1 (phase ::ₘ others))
    (allowed : Allowed state.1 phase op) :
    True ∧ ∀ reply state', threads.system.exec op state reply state' →
      Sound state'.1 (Phase.advance phase op reply ::ₘ others) ∧
        Phase.advance phase op reply = .other := by
  subst same
  refine ⟨trivial, fun reply state' effect => ⟨?_, rfl⟩⟩
  exact sound.keep (keeps_of_namesNone effect.1 plain allowed) nofun

/-- A program that names no session is safe. -/
theorem safe_of_namesNone {α : Type} {program : Call α} (only : program.Only NamesNone) :
    outline.Safe (fun last _ => last = .other) .other program :=
  Outline.Safe.of_steps other_step only rfl

/-- A step of a request for a session that writes no session. -/
theorem inert_auth {creating : Option SessionId} {op : Op}
    (quiet : ¬ op.IsRedis Command.WritesSessions) : Outline.Inert outline (.auth creating) op where
  asserts _ := trivial
  keeps state others reply state' sound effect :=
    Sound.keep sound (.of_eq ((World.exec_keepsRedis effect.1).sessions quiet)) fun _ => id
  still reply := by
    cases op with
    | redis command =>
        cases command with
        | hset key =>
            cases key with
            | binding => cases creating <;> rfl
            | session => exact absurd trivial quiet
        | expire => exact absurd trivial quiet
        | _ => cases creating <;> rfl
    | _ => cases creating <;> rfl

/-- Creating a session writes its name with a time to live. -/
theorem sessionCreate_safe {nickname : Nickname} {ttlSecs : ℕ} (filled : nickname ≠ "") :
    outline.Safe (fun last created => last = .auth none ∧ created = .ok ()) (.auth none)
      (Connector.sessionCreate sessionId nickname ttlSecs).run := by
  refine Threads.safe_redis fun world _ others sound _ => ⟨trivial, fun _ redis effect _ => ?_⟩
  obtain rfl : redis = _ := effect
  refine ⟨Sound.create sound filled, ?_⟩
  refine Threads.safe_redis fun world _ others sound allowed =>
    ⟨trivial, fun _ redis effect _ => ?_⟩
  have step : World.exec (.redis (.hset (.session sessionId) "room_id" "")) world (.ok ())
      { world with redis } := ⟨(), redis, effect, rfl, rfl⟩
  refine ⟨Sound.keep sound (keeps_of_namesNone step ?_ allowed) fun _ => id, ?_⟩
  · exact (by decide : "room_id" ≠ "nickname")
  refine Threads.safe_redis fun world _ others sound _ => ⟨trivial, fun _ redis effect _ => ?_⟩
  obtain ⟨-, rfl⟩ := effect
  exact ⟨Sound.expire sound, rfl, rfl⟩

/-- Signing in creates a session that is well formed. -/
theorem auth_safe (config : Connector.Config) (nickname : String) :
    outline.Safe (fun last _ => last = .auth none) (.auth none)
      (Connector.auth config nickname).run := by
  unfold Connector.auth
  cases valid : Connector.validateNickname nickname with
  | false => rfl
  | true =>
      refine Outline.Safe.inert (inert_auth id) fun _ drawn _ _ => ?_
      have reserves : outline.Safe (fun last _ => last = .auth none) (.auth none)
          (Connector.reserveNickname (Connector.trim nickname) drawn).run :=
        Outline.Safe.of_only
          ((redisCommand_only (inert_auth id)).except_bind fun free => by cases free <;> trivial)
      refine Outline.Safe.except_bind (Outline.Safe.adapt (reserves.mono ?_))
      intro _ reserved same
      subst same
      cases reserved with
      | error error => rfl
      | ok _ =>
          refine Outline.Safe.except_bind (Outline.Safe.lift ((sessionCreate_safe ?_).mono ?_))
          · exact Connector.trim_ne_empty valid
          · intro _ _ ends
            obtain ⟨rfl, rfl⟩ := ends
            rfl

/-- Logging out names no session. -/
theorem logout_only (sessionId : SessionId) : (Connector.logout sessionId).run.Only NamesNone := by
  refine Program.Only.except_bind (Program.Only.adapt ((redisCommand_only trivial).except_bind
    fun _ => trivial)) fun found => ?_
  cases found with
  | none => trivial
  | some session =>
      refine Program.Only.except_bind (Program.Only.lift (redisCommand_drop_only trivial))
        fun _ => ?_
      exact (Program.Only.lift (redisCommand_drop_only trivial)).except_bind fun _ => trivial

/-- Every task but the request for a new session writes no nickname. -/
theorem program_only (task : SessionTask) (plain : Phase.initial task = .other) :
    task.program.Only NamesNone := by
  have ordinary := @namesNone_of_ordinary
  cases task with
  | auth => cases plain
  | logout sessionId => exact Program.Only.bind (logout_only sessionId) fun _ => trivial
  | sessionRenew config sessionId =>
      exact Program.Only.bind (sessionRenew_only (fun _ => ordinary) config sessionId)
        fun _ => trivial
  | text state connection jwt message =>
      refine Program.Only.bind (handleText_only (fun _ => ordinary) jwt message ?_) fun _ => trivial
      exact fun _ _ _ => ⟨fun _ => trivial, trivial⟩
  | disconnect => exact cleanupConnection_only fun _ => ordinary
  | closeRooms => exact closeRoomsDueToSfuAddr_only (fun _ => ordinary) _ _
  | renewLease sessionId ttlSecs =>
      exact Program.Only.bind (renewSessionTtl_only (fun _ => ordinary) sessionId ttlSecs)
        fun _ => trivial
  | janitor config =>
      exact Supervisor.logged_only (runJanitorIteration_only (fun _ => ordinary) config
        fun _ => trivial)

/-- A task that is idle may finish. -/
theorem finish_of_idle (idle : phase = .auth none ∨ phase = .other) (result : Unit) :
    outline.MayFinish phase result := by
  intro state others sound
  refine ⟨sound.named, fun sessionId session found => ?_⟩
  refine (sound.timed sessionId session found).imp_right fun member => ?_
  refine (Multiset.mem_cons.mp member).resolve_left fun own => ?_
  rw [← own] at idle
  rcases idle with creating | other
  · cases creating
  · cases other

/-- Every task keeps the sessions well formed. -/
theorem program_safe (task : SessionTask) :
    outline.Safe outline.MayFinish (.initial task) task.program := by
  have first : (∃ config nickname, task = .auth config nickname) ∨ Phase.initial task = .other := by
    cases task with
    | auth config nickname => exact .inl ⟨config, nickname, rfl⟩
    | _ => exact .inr rfl
  rcases first with ⟨config, nickname, rfl⟩ | plain
  · refine Outline.Safe.mapConst ((auth_safe config nickname).mono fun _ _ same => ?_)
    exact finish_of_idle (.inl same) ()
  · rw [plain]
    exact (safe_of_namesNone (program_only task plain)).mono fun _ result same =>
      finish_of_idle (.inr same) result

/-! ## Runs -/

/-- What a task knows of the sessions is kept by the others. -/
theorem stable : outline.Stable where
  start := by
    intro before others phase program after started sound
    obtain ⟨rfl, task, rfl, rfl⟩ := started
    refine ⟨⟨sound.named, fun sessionId session found => ?_⟩, program_safe task⟩
    exact (sound.timed sessionId session found).imp_right Multiset.mem_cons_of_mem
  discard _ _ _ never := never.elim
  environment := by
    intro before others after changed sound
    obtain ⟨time, -, elapsed⟩ := changed
    have sound : Sound before.1 others := sound
    change Sound after.1 others
    rw [elapsed]
    refine ⟨fun sessionId session found => ?_, fun sessionId session found => ?_⟩
    · exact sound.named sessionId session (lookup_filter_eq_some.mp found).1
    · exact sound.timed sessionId session (lookup_filter_eq_some.mp found).1

/-- No run is in progress. -/
def begin (world : World) : threads.system.Pool := ⟨(world, ()), []⟩

/-- **Session hashes stay well formed** in every run in which no service but the one that
creates a session writes to a session hash that is gone. -/
theorem allFormed_of_quiescent {world : World} (formed : AllFormed world)
    {pool : threads.system.Pool} (run : Reaches guard (begin world) pool)
    (idle : pool.Quiescent) : AllFormed pool.state.1 := by
  have initial : outline.Holds (begin world) := .of_quiescent
    ⟨fun sessionId session found => (formed sessionId session found).named,
      fun sessionId session found => .inl (formed sessionId session found).timed⟩
  have sound : Sound pool.state.1 0 := (initial.reaches stable run).quiescent idle
  intro sessionId session found
  refine ⟨sound.named sessionId session found, ?_⟩
  exact (sound.timed sessionId session found).resolve_right (Multiset.notMem_zero _)

/-! ## A connection that ends after its session -/

instance (world : World) (op : Op) (reply : op.Reply) :
    Decidable (threads.assumed world op reply) := inferInstanceAs (Decidable True)

/-- The test of `Allowed`. -/
def allows (world : World) : Phase → Op → Bool
  | .auth none, _ => true
  | _, .redis (.hset (.session sessionId) _ _) => decide (sessionId ∈ world.redis.sessions)
  | _, _ => true

/-- The test that a run makes of each operation is the condition on it. -/
theorem allows_iff {world : World} {phase : Phase} {op : Op} :
    allows world phase op = true ↔ Allowed world phase op := by
  unfold allows Allowed
  split
  · exact iff_of_true rfl trivial
  · exact decide_eq_true_iff
  · exact iff_of_true rfl trivial

instance decidableAllowed (world : World) (phase : Phase) (op : Op) :
    Decidable (Allowed world phase op) :=
  decidable_of_iff _ allows_iff

instance : ∀ state phase op others, Decidable (guard state phase op others) :=
  fun state phase op _ => decidableAllowed state.1 phase op

/-- Alice is in a room. -/
def attended : World :=
  { World.fresh with
    redis := { (World.fresh.assignTo "room-1").redis with
      members := {("room-1", "alice")}
      sessions := (∅ : Map SessionId SessionHash).insert "session-1"
        ⟨Hash.set (some (Hash.set none "nickname" "alice")) "room_id" "room-1", some 3600000⟩
      strings := (∅ : Map StringKey StringValue).insert (.nick "alice") ⟨"session-1", none⟩ }
    issued := {"room-1", "session-1"}
    nodes := fun _ =>
      { peers := (∅ : PeerRegistry).insert ("room-1", "alice") ⟨0, some sampleSfu.grpcAddr⟩
        sessions := ⟨(∅ : Map SessionId SessionState).insert "session-1" ⟨"alice", some "room-1"⟩,
          (∅ : Map RoomId (Finset SessionId)).insert "room-1" {"session-1"}⟩ }
    sfuPeers := {(sampleSfu.grpcAddr, "room-1", "alice")}
    connections := fun _ => { capacity := 256, context := { sessionId := some "session-1" } } }

/-- The sessions of the run are well formed when it starts. -/
theorem allFormed_attended : AllFormed attended := by
  intro sessionId session found
  have looked := lookup_insert_if (∅ : Map SessionId SessionHash) "session-1" sessionId
    ⟨Hash.set (some (Hash.set none "nickname" "alice")) "room_id" "room-1", some 3600000⟩
  rw [show attended.redis.sessions.lookup sessionId = _ from looked] at found
  split at found
  · cases found
    decide +kernel
  · cases found

/-- The requests to log out at the connector and the end of the connection. -/
def logoutAndDisconnect : List threads.system.Thread :=
  [SessionTask.logout "session-1", .disconnect sampleNode 0].map fun task =>
    ⟨Phase.initial task, task.program⟩

/-- A logout and a disconnect are running from the start. -/
theorem reaches_logoutAndDisconnect {guard : threads.system.Guard} :
    Reaches guard (begin attended) ⟨(attended, ()), logoutAndDisconnect⟩ := by
  refine reaches_start fun thread member others => ?_
  obtain ⟨task, -, rfl⟩ := List.mem_map.mp member
  exact ⟨rfl, task, rfl, rfl⟩

/-- The connection ends before the session, and every hash is well formed. -/
theorem allFormed_disconnect_first : ∃ pool, Reaches guard (begin attended) pool ∧
    pool.Quiescent ∧ AllFormed pool.state.1 := by
  have replayed : (threads.sampler.replay guard (turns 1 25 ++ turns 0 4)
      ⟨(attended, ()), logoutAndDisconnect⟩).any (fun pool => pool.threads.isEmpty) = true := by
    decide +kernel
  obtain ⟨pool, run, idle⟩ := Sampler.exists_of_replay replayed
  have run := reaches_logoutAndDisconnect.trans run
  have idle : pool.Quiescent := List.isEmpty_iff.mp idle
  exact ⟨pool, run, idle, allFormed_of_quiescent allFormed_attended run idle⟩

/-- **A session hash without a nickname and a deadline**: the session logs out at the
connector, and the end of its connection writes to the hash that is gone. -/
theorem malformed_after_logout : AllFormed attended ∧ ∃ pool,
    Reaches unguarded (begin attended) pool ∧ pool.Quiescent ∧ ¬ AllFormed pool.state.1 := by
  have replayed : (threads.sampler.replay unguarded (turns 0 29)
      ⟨(attended, ()), logoutAndDisconnect⟩).any (fun pool => pool.threads.isEmpty &&
        decide (∃ session ∈ pool.state.1.redis.sessions.lookup "session-1", ¬ Formed session)) =
      true := by
    decide +kernel
  obtain ⟨pool, run, passed⟩ := Sampler.exists_of_replay replayed
  obtain ⟨idle, malformed⟩ := Bool.and_eq_true_iff.mp passed
  obtain ⟨session, found, unformed⟩ := of_decide_eq_true malformed
  exact ⟨allFormed_attended, pool, reaches_logoutAndDisconnect.trans run, List.isEmpty_iff.mp idle,
    fun formed => unformed (formed "session-1" session found)⟩

end Callifornia.Sessions.WellFormed
