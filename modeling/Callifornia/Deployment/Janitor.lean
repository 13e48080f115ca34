import Callifornia.Deployment.Rooms
import Callifornia.Supervisor.Seeding

/-! # What an iteration of the janitor deletes

An iteration deletes a binding when it has read that the owner is not alive, the members of such a
room or of one that its first scan does not cover, and a session when it has read that the owner is
not alive. Nothing else in the deployment is restricted here but how rooms come into being.
-/

namespace Callifornia.Deployment

open Concurrency Concurrency.Program FiniteMap Store Signaling

namespace Sweep

/-- The iteration takes the node for dead. -/
def Dead (sweep : Sweep) (owner : NodeId) : Prop := ∃ alive ∈ sweep.alive, owner ∉ alive

/-- It reclaims the room: it has read that its owner is dead. -/
def Reclaims (sweep : Sweep) (roomId : RoomId) : Prop :=
  ∃ owner, sweep.binding = some (roomId, owner) ∧ sweep.Dead owner

/-- It takes the member set of the room for an orphan. -/
def Orphans (sweep : Sweep) (roomId : RoomId) : Prop :=
  roomId ∈ sweep.listed ∧ roomId ∉ sweep.covered

/-- It condemns the session: it has read that its owner is dead, and not deleted it since. -/
def Condemns (sweep : Sweep) (sessionId : SessionId) : Prop :=
  ∃ owner, sweep.session = some (sessionId, owner) ∧ sweep.Dead owner

/-- What an iteration may do, how far it is given. -/
def Allows (sweep : Sweep) : Op → Prop
  | .redis (.zrangeByScore .signalingNodes _) => sweep.binding = none ∧ sweep.session = none
  | .redis (.scan .bindings cursor) => ∀ owed ∈ cursor, sweep.began = true ∧ sweep.owed = owed
  | .redis (.scan .members _) => sweep.began = true ∧ sweep.ended = false
  | .redis (.hget (.session _) field) => field = "signaling_owner_id"
  | .redis (.del (.binding roomId)) => sweep.Reclaims roomId
  | .redis (.delMembers roomId) => sweep.Reclaims roomId ∨ sweep.Orphans roomId
  | .redis (.del (.session sessionId)) => sweep.Condemns sessionId
  | .redis (.hset ..) | .redis (.sadd ..) | .redis (.srem ..) | .redis (.expire ..)
  | .redis (.assignRoomToSfu ..) => False
  | _ => True

end Sweep

/-- The contract that every task meets, whatever is configured. -/
def tracing (restriction : Restriction) : Contract (deployment restriction) where
  rely _ _ := True
  allowed known op := known.Traces op ∧ ∀ sweep ∈ known.sweep, sweep.Allows op
  inv := Ledger

variable {restriction : Restriction} {op : Op} {known : Knowledge} {sweep : Sweep} {roomId : RoomId}

/-! ## The tasks of the nodes and the connectors -/

/-- The task is no iteration of the janitor. -/
def Elsewhere (known : Knowledge) : Prop := known.sweep = none

/-- A task that is no iteration of the janitor may take every step about rooms it knows. -/
theorem allowed_elsewhere (traces : known.Traces op) (elsewhere : Elsewhere known) :
    (tracing restriction).allowed known op := by
  refine ⟨traces, fun sweep own => ?_⟩
  rw [show known.sweep = none from elsewhere] at own
  cases own

/-- A harmless step binds no room and adds nobody to one. -/
theorem traces_of_harmless (harmless : Harmless op) : known.Traces op := by
  cases op with
  | redis command =>
      cases command with
      | assignRoomToSfu | sadd => exact harmless.elim
      | hset key =>
          cases key with
          | binding => exact harmless.elim
          | session => exact trivial
      | _ => exact trivial
  | peers node command =>
      cases command with
      | register => exact harmless.elim
      | _ => exact trivial
  | _ => exact trivial

/-- A step that a known placement directs is about a known room. -/
theorem traces_of_directs (directs : known.Directs op) : known.Traces op := by
  cases op with
  | redis command =>
      cases command with
      | sadd => exact directs
      | _ => exact directs.elim
  | peers node command =>
      cases command with
      | register => exact directs
      | _ => exact directs.elim
  | createPeer | deletePeer | handleSdp | addIceCandidate => exact trivial
  | _ => exact directs.elim

/-- A task does not become an iteration of the janitor. -/
theorem stable_elsewhere : Contract.Stable (deployment restriction) Elsewhere := by
  intro (known : Knowledge) op reply elsewhere
  change known.sweep.map _ = none
  rw [show known.sweep = none from elsewhere]
  rfl

/-- The step matters to no room, and no iteration minds it. -/
structure Idle (op : Op) : Prop where
  traces : ∀ known : Knowledge, known.Traces op
  allows : ∀ sweep : Sweep, sweep.Allows op
  still : ∀ (sweep : Sweep) (reply : op.Reply), sweep.advance op reply = sweep

/-- How far the iteration of a task is. -/
def At (holds : Sweep → Prop) (known : Knowledge) : Prop := ∃ sweep ∈ known.sweep, holds sweep

/-- Steps that do not matter leave an iteration where it is. -/
theorem at_idle {α : Type} {holds : Sweep → Prop} {program : Call α} (only : program.Only Idle) :
    (tracing restriction).Admits (At holds) program := by
  refine Contract.admits_of_steps (fun op known idle before => ?_) only
  obtain ⟨sweep, own, holds⟩ := before
  refine ⟨⟨idle.traces known, fun other same => idle.allows other⟩, fun reply => ?_⟩
  refine ⟨sweep, ?_, holds⟩
  change known.sweep.map _ = some sweep
  rw [show known.sweep = some sweep from own, Option.map_some, idle.still]

/-- They may be taken wherever a task is. -/
theorem keeps_idle {α : Type} {keeps : Knowledge → Prop}
    (stable : Contract.Stable (deployment restriction) keeps) {program : Call α}
    (only : program.Only Idle) : (tracing restriction).Admits keeps program :=
  Contract.admits_of_only stable
    (only.mono fun _ idle known _ => ⟨idle.traces known, fun sweep _ => idle.allows sweep⟩)

/-- Reading and writing records removes no room. -/
theorem idle_instance {instanceId : InstanceId} :
    Idle (.redis (.hgetInstance instanceId)) ∧
      ∀ record, Idle (.redis (.hsetInstance instanceId record)) := by
  refine ⟨⟨fun _ => trivial, fun _ => trivial, fun _ _ => rfl⟩, fun record => ?_⟩
  exact ⟨fun _ => trivial, fun _ => trivial, fun _ _ => rfl⟩

/-- Reading and writing loads removes no room. -/
theorem idle_load {instanceId : InstanceId} :
    Idle (.redis (.zscore .roomLoad instanceId)) ∧
      ∀ score, Idle (.redis (.zadd .roomLoad instanceId score)) := by
  refine ⟨⟨fun _ => trivial, fun _ => trivial, fun _ _ => rfl⟩, fun score => ?_⟩
  exact ⟨fun _ => trivial, fun _ => trivial, fun _ _ => rfl⟩

/-- Neither does reading the clock. -/
theorem idle_unixNow : Idle .unixNow :=
  ⟨fun _ => trivial, fun _ => trivial, fun _ _ => rfl⟩

/-- The release of a slot removes no room. -/
theorem supervisor_decrement_idle (instanceId : InstanceId) :
    (Supervisor.decrementSfuRoomLoad instanceId).run.Only Idle :=
  Supervisor.decrementSfuRoomLoad_only idle_load.1 idle_load.2 idle_unixNow idle_instance.1
    fun _ _ => idle_instance.2 _

/-- The contract tolerates every handler. -/
theorem tolerates_tracing : Tolerates (tracing restriction) Elsewhere where
  stable := stable_elsewhere
  steps _ harmless _ := allowed_elsewhere (traces_of_harmless harmless)
  directs _ elsewhere _ directs := allowed_elsewhere (traces_of_directs directs) elsewhere
  slots stable _ := keeps_idle stable (decrementSfuRoomLoad_only idle_load.1 idle_load.2
    idle_unixNow idle_instance.1 idle_instance.2)
  supervisorSlots stable instanceId := keeps_idle stable (supervisor_decrement_idle instanceId)

/-- A node may bind the room it has drawn. -/
theorem tracing_binding (config : Signaling.Config) :
    AdmitsBinding (tracing restriction) Elsewhere config := by
  intro roomId clock known elsewhere
  have drawn := @stable_elsewhere restriction known .newUuid roomId elsewhere
  exact allowed_elsewhere rfl (@stable_elsewhere restriction _ .unixNow clock drawn)

/-- Seeding removes no room. -/
theorem seedSfuInventory_idle (inventory : List Supervisor.SfuCandidate) :
    (Supervisor.seedSfuInventory inventory).run.Only Idle := by
  refine ⟨idle_unixNow, fun now => Only.except_forM fun candidate _ => ?_⟩
  refine (redisCommand_only idle_instance.1).except_bind fun existing => ?_
  refine (redisCommand_only (idle_instance.2 _)).except_bind fun _ => ?_
  refine (redisCommand_only idle_load.1).except_bind fun existingLoad => ?_
  cases existingLoad with
  | some => trivial
  | none => exact redisCommand_only (idle_load.2 _)

/-- Noting the health of an SFU removes no room. -/
theorem updateSfuHealth_idle (instanceId : InstanceId) (alive : Bool) (now : ℤ) :
    (Supervisor.updateSfuHealth instanceId alive now).run.Only Idle := by
  refine (redisCommand_only idle_instance.1).except_bind fun record => ?_
  cases record with
  | none => trivial
  | some record => exact redisCommand_only (idle_instance.2 _)

/-- A probe of the SFUs keeps to the contract. -/
theorem sfuProbeTick_traced {config : Supervisor.Config} :
    (tracing restriction).Admits Elsewhere (Supervisor.sfuProbeTick config) := by
  have tolerates : Tolerates (tracing restriction) Elsewhere := tolerates_tracing
  refine Contract.Admits.bind (tolerates.redisCommand (by trivial)) fun records => ?_
  cases records with
  | error => exact Contract.Admits.ret _
  | ok records =>
      refine (tolerates.step (by trivial)).bind fun now => Contract.Admits.forM fun record _ => ?_
      refine (tolerates.step (by trivial)).bind fun alive => ?_
      refine (keeps_idle stable_elsewhere (updateSfuHealth_idle _ _ _)).bind fun updated => ?_
      cases updated with
      | error => exact Contract.Admits.ret _
      | ok =>
          cases alive with
          | true => exact Contract.Admits.ret _
          | false => exact tolerates.handleDeadSfu

/-! ## An iteration -/

/-- What is known of an iteration after a step. -/
theorem at_advance {holds after : Sweep → Prop} {reply : op.Reply} (before : At holds known)
    (advances : ∀ sweep, holds sweep → after (sweep.advance op reply)) :
    At after (advance known op reply) := by
  obtain ⟨sweep, own, holds⟩ := before
  refine ⟨sweep.advance op reply, ?_, advances sweep holds⟩
  change known.sweep.map _ = some _
  rw [show known.sweep = some sweep from own, Option.map_some]

/-- An iteration may take the steps it allows itself. -/
theorem allowed_at {holds : Sweep → Prop} (before : At holds known) (traces : known.Traces op)
    (allows : ∀ sweep, holds sweep → sweep.Allows op) : (tracing restriction).allowed known op := by
  obtain ⟨sweep, own, holds⟩ := before
  refine ⟨traces, fun other same => ?_⟩
  obtain rfl := Option.some.inj (own.symm.trans same)
  exact allows sweep holds

/-- An iteration reads something. -/
theorem at_command {holds : Sweep → Prop} {ε : Type} {onFailure : RedisFailure → ε}
    (command : Command) (after : command.Reply → Sweep → Prop)
    (traces : ∀ known : Knowledge, known.Traces (.redis command))
    (allows : ∀ sweep, holds sweep → sweep.Allows (.redis command))
    (advances : ∀ sweep reply, holds sweep →
      after reply (sweep.advance (.redis command) (.ok reply))) :
    (tracing restriction).Yields (At holds) (fun reply => At (after reply))
      (redisCommand onFailure command) := by
  intro (known : Knowledge) before
  refine ⟨allowed_at before (traces known) allows, fun reply _ value same => ?_⟩
  cases reply with
  | error failure => cases same
  | ok reply =>
      obtain rfl := Except.ok.inj same
      exact at_advance before fun sweep holds => advances sweep reply holds

/-- An iteration takes a step that leaves it where it is. -/
theorem at_still {holds : Sweep → Prop} {command : Command} {ε : Type}
    {onFailure : RedisFailure → ε}
    (traces : ∀ known : Knowledge, known.Traces (.redis command))
    (allows : ∀ sweep, holds sweep → sweep.Allows (.redis command))
    (still : ∀ (sweep : Sweep) (reply : Op.Reply (.redis command)),
      sweep.advance (.redis command) reply = sweep) :
    (tracing restriction).Admits (At holds) (redisCommand onFailure command).run := by
  intro known before
  refine ⟨allowed_at before (traces known) allows, fun reply _ => ?_⟩
  exact at_advance before fun sweep holds => (still sweep reply).symm ▸ holds

/-- What is known of an iteration may be weakened. -/
theorem at_mono {strong weak : Sweep → Prop} (implies : ∀ sweep, strong sweep → weak sweep)
    (before : At strong known) : At weak known := by
  obtain ⟨sweep, own, holds⟩ := before
  exact ⟨sweep, own, implies sweep holds⟩

/-- Steps that do not matter, in an operation. -/
theorem at_skip {α ε : Type} {holds : Sweep → Prop} {program : ExceptT ε Call α}
    (only : program.run.Only Idle) :
    (tracing restriction).Yields (At holds) (fun _ => At holds) program :=
  (at_idle only).yields

variable {alive : List NodeId} {found : Finset RoomId}

/-- The sweep begins with the nodes that are alive. -/
theorem aliveSignalingNodes_at (staleSecs : ℕ) : (tracing restriction).Yields (At (· = {}))
    (fun alive => At (· = { alive := some alive })) (Supervisor.aliveSignalingNodes staleSecs) := by
  refine Contract.Yields.bind (at_skip (Only.lift (issue_only idle_unixNow))) fun now => ?_
  refine at_command (.zrangeByScore .signalingNodes (now - staleSecs)) _ (fun _ => trivial)
    (fun sweep same => ?_) fun sweep reply same => ?_
  · subst same
    exact ⟨rfl, rfl⟩
  · subst same
    rfl

/-- The pages of the scan of the bindings. -/
theorem scanBindings_at (bound : ℕ) (cursor : Cursor) (results : List RoomId) :
    (tracing restriction).Yields
      (At (· = { alive := some alive, began := cursor.isSome, found := results.toFinset,
                 owed := cursor.getD ∅ }))
      (fun ids => At (· = { alive := some alive, began := true, found := ids.toFinset }))
      (Supervisor.scanFrom .bindings bound cursor results) := by
  induction bound generalizing cursor results with
  | zero =>
      intro (known : Knowledge) before
      exact ⟨allowed_at before trivial fun _ _ => trivial, fun reply => reply.elim⟩
  | succ bound ih =>
      refine Contract.Yields.bind (at_command (.scan .bindings cursor) (fun page sweep => sweep =
        { alive := some alive, began := true, found := (results ++ page.1).toFinset,
          owed := page.2.getD ∅ }) (fun _ => trivial) ?_ ?_) fun page => ?_
      · intro sweep same owed started
        subst same
        obtain rfl : cursor = some owed := started
        exact ⟨rfl, rfl⟩
      · intro sweep page same
        subst same
        rw [List.toFinset_append]
        rfl
      · obtain ⟨page, next⟩ := page
        cases next with
        | none => exact Contract.Yields.ret fun _ => id
        | some left => exact ih (some left) _

/-- An iteration after its scan of the bindings. -/
def Reclaiming (alive : List NodeId) (found : Finset RoomId) (sweep : Sweep) : Prop :=
  ∃ binding, sweep = { alive := some alive, began := true, found, binding }

/-- A binding that is read names its owner. -/
theorem getRoomAssignment_at : (tracing restriction).Yields (At (Reclaiming alive found))
    (fun room => At fun sweep => Reclaiming alive found sweep ∧ ∀ binding ∈ room,
      binding.ownerId ≠ "" → sweep.binding = some (roomId, binding.ownerId))
    (Supervisor.getRoomAssignment roomId) := by
  refine Contract.Yields.bind (at_command (.hgetall (.binding roomId)) (fun values sweep =>
    Reclaiming alive found sweep ∧ sweep.binding =
      (values.lookup "signaling_owner_id").map fun owner => (roomId, owner))
    (fun _ => trivial) (fun _ _ => trivial) ?_) fun values => Contract.Yields.ret ?_
  · intro sweep values before
    obtain ⟨binding, rfl⟩ := before
    exact ⟨⟨_, rfl⟩, rfl⟩
  · refine fun known read => at_mono (fun sweep both => ⟨both.1, ?_⟩) read
    intro binding named owned
    unfold Supervisor.RoomBinding.ofFields at named
    split at named
    · cases named
    · obtain rfl := Option.some.inj named
      rw [both.2]
      cases owner : values.lookup "signaling_owner_id" with
      | none =>
          rw [owner] at owned
          exact absurd rfl owned
      | some owner => rfl

/-- A room is reclaimed after it has been found, or it is left. -/
theorem reclaimIfStale_at : (tracing restriction).Yields (At (Reclaiming alive found))
    (fun _ => At (Reclaiming alive found)) (Supervisor.reclaimIfStale alive roomId) := by
  refine Contract.Yields.bind getRoomAssignment_at fun room => ?_
  cases room with
  | none => exact Contract.Yields.ret fun known => at_mono fun _ both => both.1
  | some binding =>
      change (tracing restriction).Yields _ _
        (if binding.ownerId = "" ∨ binding.ownerId ∈ alive then _
        else _)
      split
      · exact Contract.Yields.ret fun known => at_mono fun _ both => both.1
      · rename_i stale
        rw [not_or] at stale
        have reclaims (sweep : Sweep) (both : Reclaiming alive found sweep ∧ ∀ read ∈ some binding,
            read.ownerId ≠ "" → sweep.binding = some (roomId, read.ownerId)) :
            sweep.Reclaims roomId := by
          refine ⟨binding.ownerId, both.2 binding rfl stale.1, alive, ?_, stale.2⟩
          obtain ⟨⟨_, rfl⟩, -⟩ := both
          rfl
        refine Contract.Yields.mono (Contract.Yields.lift ?_) (fun _ => id)
          fun _ known => at_mono fun _ both => both.1
        refine Contract.Admits.bind (at_idle ?_) fun _ => ?_
        · cases binding.sfuInstanceId with
          | none => trivial
          | some instanceId => exact Supervisor.logged_only (supervisor_decrement_idle instanceId)
        refine Contract.Admits.bind (logged_admits (Contract.Admits.except_bind
          (at_still (fun _ => trivial) reclaims fun _ _ => rfl) fun _ =>
            Contract.Admits.ret _)) fun _ => ?_
        exact logged_admits (Contract.Admits.except_bind (at_still (fun _ => trivial)
          (fun sweep both => .inl (reclaims sweep both)) fun _ _ => rfl) fun _ =>
            Contract.Admits.ret _)

/-- The pages of the scan of the member sets. -/
theorem scanMembers_at (bound : ℕ) (cursor : Cursor) (results : List RoomId) :
    (tracing restriction).Yields
      (At fun sweep => ∃ binding, sweep =
        { alive := some alive, began := true, found, binding, listed := results.toFinset })
      (fun ids => At fun sweep => ∃ binding, sweep =
        { alive := some alive, began := true, found, binding, listed := ids.toFinset,
          ended := true })
      (Supervisor.scanFrom .members bound cursor results) := by
  induction bound generalizing cursor results with
  | zero =>
      intro (known : Knowledge) before
      exact ⟨allowed_at before trivial fun _ _ => trivial, fun reply => reply.elim⟩
  | succ bound ih =>
      refine Contract.Yields.bind (at_command (.scan .members cursor) (fun page sweep =>
        ∃ binding, sweep =
          { alive := some alive, began := true, found, binding,
            listed := (results ++ page.1).toFinset, ended := page.2.isNone })
          (fun _ => trivial) ?_ ?_) fun page => ?_
      · intro sweep before
        obtain ⟨_, rfl⟩ := before
        exact ⟨rfl, rfl⟩
      · intro sweep page before
        obtain ⟨binding, rfl⟩ := before
        refine ⟨binding, ?_⟩
        rw [List.toFinset_append]
        rfl
      · obtain ⟨page, next⟩ := page
        cases next with
        | none => exact Contract.Yields.ret fun _ => id
        | some left => exact ih (some left) _

/-- A member set is deleted only if its room was not among the bindings scanned. -/
theorem deleteIfOrphan_at {bindingIds rooms : List RoomId} (scanned : roomId ∈ rooms) :
    (tracing restriction).Yields
      (At fun sweep => ∃ binding, sweep =
        { alive := some alive, began := true, found := bindingIds.toFinset, binding,
          listed := rooms.toFinset, ended := true })
      (fun _ => At fun sweep => ∃ binding, sweep =
        { alive := some alive, began := true, found := bindingIds.toFinset, binding,
          listed := rooms.toFinset, ended := true })
      (Supervisor.deleteIfOrphan bindingIds roomId) := by
  unfold Supervisor.deleteIfOrphan
  split
  · exact Contract.Yields.ret fun _ => id
  · rename_i orphan
    refine Contract.Yields.lift (logged_admits (Contract.Admits.except_bind (at_still
      (fun _ => trivial) ?_ fun _ _ => rfl) fun _ => Contract.Admits.ret _))
    intro sweep before
    obtain ⟨binding, rfl⟩ := before
    refine .inr ⟨List.mem_toFinset.mpr scanned, fun covered => ?_⟩
    rcases Finset.mem_union.mp covered with found | owed
    · exact orphan (List.mem_toFinset.mp found)
    · exact Finset.notMem_empty _ owed

/-- A session is deleted only if its owner has been read and is not alive. -/
theorem deleteSessionIfStale_at {sessionId : SessionId} :
    (tracing restriction).Yields (At (·.alive = some alive)) (fun _ => At (·.alive = some alive))
      (Supervisor.deleteSessionIfStale alive sessionId) := by
  have reads : (tracing restriction).Yields (At (·.alive = some alive))
      (fun owner => At fun sweep => sweep.alive = some alive ∧ ∀ named ∈ owner,
        sweep.session = some (sessionId, named)) (Supervisor.getSessionOwner sessionId) := by
    refine Contract.Yields.bind (at_command (.hget (.session sessionId) "signaling_owner_id")
      (fun owner sweep => sweep.alive = some alive ∧
        sweep.session = owner.map fun owner => (sessionId, owner)) (fun _ => trivial)
      (fun _ _ => rfl) fun sweep owner before => ⟨before, rfl⟩) fun owner =>
        Contract.Yields.ret fun known read => at_mono (fun sweep both => ⟨both.1, ?_⟩) read
    intro named kept
    obtain ⟨rfl, -⟩ := Option.filter_eq_some_iff.mp kept
    exact both.2
  refine Contract.Yields.bind reads fun owner => ?_
  cases owner with
  | none => exact Contract.Yields.ret fun known => at_mono fun _ both => both.1
  | some owner =>
      change (tracing restriction).Yields _ _ (if owner ∈ alive then _ else _)
      split
      · exact Contract.Yields.ret fun known => at_mono fun _ both => both.1
      · rename_i stale
        intro (known : Knowledge) before
        refine ⟨allowed_at before trivial fun sweep both => ?_, fun reply _ => ?_⟩
        · exact ⟨owner, both.2 owner rfl, alive, both.1, stale⟩
        · have after : At (·.alive = some alive)
              (advance known (.redis (.del (.session sessionId))) reply) :=
            at_advance before fun _ both => both.1
          cases reply <;> exact fun _ _ => after

/-- **An iteration keeps to what it has read.** -/
theorem runJanitorIteration_at {config : Supervisor.Config} :
    (tracing restriction).Yields (At (· = {})) (fun _ _ => True)
      (Supervisor.runJanitorIteration config) := by
  refine (aliveSignalingNodes_at _).bind fun alive => ?_
  refine Contract.Yields.bind (at_skip (Only.lift (issue_only idle_unixNow))) fun now => ?_
  refine Contract.Yields.bind (scanBindings_at _ none []) fun bindingIds => ?_
  refine Contract.Yields.bind ((Contract.Yields.forM fun roomId _ => reclaimIfStale_at).mono
    (fun known => at_mono fun sweep same => ⟨none, same⟩) fun _ _ => id) fun _ => ?_
  refine Contract.Yields.bind (scanMembers_at _ none []) fun rooms => ?_
  refine Contract.Yields.bind (Contract.Yields.forM fun roomId => deleteIfOrphan_at) fun _ => ?_
  have started (known : Knowledge) : At (fun sweep => ∃ binding, sweep =
      { alive := some alive, began := true, found := bindingIds.toFinset, binding,
        listed := rooms.toFinset, ended := true }) known → At (·.alive = some alive) known := by
    refine at_mono fun sweep before => ?_
    obtain ⟨_, rfl⟩ := before
    rfl
  refine Contract.Yields.bind (Contract.Yields.mono (at_skip ?_) started fun _ _ => id)
    fun loadMembers => ?_
  · refine (redisCommand_only ?_).except_bind fun _ => trivial
    exact ⟨fun _ => trivial, fun _ => trivial, fun _ _ => rfl⟩
  refine Contract.Yields.bind (at_skip (Only.except_forM fun nodeId _ =>
    Supervisor.removeLoadIfStale_only ?_)) fun _ => ?_
  · exact ⟨fun _ => trivial, fun _ => trivial, fun _ _ => rfl⟩
  refine Contract.Yields.bind (at_skip (Supervisor.scanFrom_only (fun cursor => ?_) ?_))
    fun sessionIds => ?_
  · exact ⟨fun _ => trivial, fun _ => trivial, fun _ _ => rfl⟩
  · exact ⟨fun _ => trivial, fun _ => trivial, fun _ reply => reply.elim⟩
  refine Contract.Yields.bind (Contract.Yields.forM fun sessionId _ => deleteSessionIfStale_at)
    fun _ => ?_
  refine Contract.Yields.mono (at_skip (Only.lift (Supervisor.logged_only (redisCommand_only ?_))))
    (fun _ => id) fun _ _ _ => trivial
  exact ⟨fun _ => trivial, fun _ => trivial, fun _ _ => rfl⟩

/-! ## Every task -/

/-- The task is traced, whatever it is. -/
theorem meets_tracing (task : Task) :
    (tracing restriction).Meets (fun _ _ => True) (.initial task) task.program := by
  have tolerates : Tolerates (tracing restriction) Elsewhere := tolerates_tracing
  have elsewhere {program : Call Unit} (traced : (tracing restriction).Admits Elsewhere program) :
      (tracing restriction).Meets (fun _ _ => True) ({} : Knowledge) program :=
    (traced {} (by rfl)).mono fun _ _ _ => trivial
  cases task with
  | auth => exact elsewhere tolerates.auth.mapConst
  | create => exact elsewhere tolerates.create.mapConst
  | join => exact elsewhere tolerates.join.mapConst
  | logout => exact elsewhere tolerates.connectorLogout.mapConst
  | sessionRenew => exact elsewhere tolerates.sessionRenew.mapConst
  | connection _ _ _ _ events => exact elsewhere (tolerates.handleWs (tracing_binding _) events)
  | renewLease =>
      exact elsewhere (tolerates.only (redisCommand_drop_only (by trivial))).mapConst
  | sfuEvent _ event => exact elsewhere (tolerates.handleSfuEvent event)
  | closeRooms => exact elsewhere tolerates.closeRoomsDueToSfuAddr
  | purge => exact elsewhere tolerates.runPurge
  | seed => exact elsewhere (logged_admits (keeps_idle stable_elsewhere (seedSfuInventory_idle _)))
  | signalingProbe => exact elsewhere tolerates.signalingProbeTick
  | sfuProbe => exact elsewhere sfuProbeTick_traced
  | janitor config =>
      have iterates := @runJanitorIteration_at restriction config ({ sweep := some {} } : Knowledge)
        ⟨{}, rfl, rfl⟩
      exact Contract.Meets.bind (iterates.mono fun _ _ _ => trivial)

/-- Every task of the deployment keeps to the contract. -/
theorem governs_tracing : (tracing restriction).Governs where
  sound _ _ _ _ _ _ ledger allowed step := ⟨trivial, Ledger.step ledger allowed.1 step.1⟩
  start world others phase program after started ledger := by
    obtain ⟨task, -, rfl, rfl, rfl⟩ := started
    exact ⟨Ledger.enter ledger task, meets_tracing task⟩
  finish _ _ _ _ ledger := Ledger.leave ledger
  discard _ _ _ _ ledger := Ledger.leave ledger
  environment _ _ _ changed ledger := Ledger.changed ledger changed

end Callifornia.Deployment
