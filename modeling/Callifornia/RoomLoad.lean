import Callifornia.Replay
import Callifornia.Signaling.Footprint

/-! # Room load under concurrent assignments and closes

Any number of runs of `assignRoomToLeastLoadedSfu` and `closeRoomBinding`, on any
rooms and instances. The assignment script counts its room atomically, but a close
reads the score and writes it back in two commands, so a write that falls between
them is lost. The score of an instance exceeds its number of bindings by the
closes that have deleted a binding and not yet written the score.
-/

namespace Callifornia.RoomLoad

open Concurrency Concurrency.System FiniteMap Store Signaling

/-- What a close has done so far. -/
inductive Phase
  | idle
  /-- It has read the instance of its room. -/
  | found (roomId : RoomId) (instanceId : Option InstanceId)
  /-- It has deleted a binding of this instance. -/
  | owes (instanceId : InstanceId)
  /-- It has also read the score of the instance. -/
  | scored (instanceId : InstanceId) (current : Option ℤ)
  deriving DecidableEq

def Phase.advance : Phase → (op : Op) → op.Reply → Phase
  | _, .redis (.hget (.binding roomId) _), .ok instanceId => .found roomId instanceId
  | .found _ (some instanceId), .redis (.del (.binding _)), .ok deleted =>
      if deleted = 0 then .idle else .owes instanceId
  | .found _ none, .redis (.del (.binding _)), _ => .idle
  | .owes instanceId, .redis (.zscore .roomLoad _), .ok current => .scored instanceId current
  | .scored .., .redis (.zadd .roomLoad ..), _ => .idle
  | phase, _, _ => phase

/-- The run still owes the instance a decrement. -/
def Phase.debt (instanceId : InstanceId) : Phase → ℕ
  | .owes other | .scored other _ => if other = instanceId then 1 else 0
  | _ => 0

/-- The programs: assignments of any room for any owner, and closes of any room.
Outside them, only what neither binds a room nor counts one may change. -/
def threads : Threads where
  Phase := Phase
  Ghost := Unit
  Result := Unit
  advance := Phase.advance
  start before _ phase program after := after = before ∧ phase = .idle ∧
    ((∃ roomId ownerId ownerHost ownerPort,
        program = do
          let _ ← (assignRoomToLeastLoadedSfu roomId ownerId ownerHost ownerPort).run) ∨
      ∃ roomId, program = do let _ ← (closeRoomBinding roomId).run)
  environment before _ after := after.1.redis.bindings = before.1.redis.bindings ∧
    after.1.redis.scores .roomLoad = before.1.redis.scores .roomLoad

/-- The binding names this SFU instance. -/
def Names (instanceId : InstanceId) (hash : Hash) : Prop :=
  hash.get "sfu_instance_id" = some instanceId

instance (instanceId : InstanceId) : DecidablePred (Names instanceId) := fun _ =>
  inferInstanceAs (Decidable (_ = _))

/-- The number of bindings of an instance. -/
def bindingCount (world : World) (instanceId : InstanceId) : ℕ :=
  tally (Names instanceId) world.redis.bindings

/-- The score of every instance is its number of bindings. -/
def Exact (world : World) : Prop :=
  ∀ instanceId, world.redis.score .roomLoad instanceId = bindingCount world instanceId

/-- No update is lost: a close deletes a binding only if that is still one of the
instance it read before, and writes a score only if it is still the one it read. -/
def guard : threads.system.Guard
  | (world, _), .found roomId instanceId, .redis (.del _), _ =>
      ∀ hash ∈ world.redis.bindings.lookup roomId, hash.get "sfu_instance_id" = instanceId
  | (world, _), .scored instanceId current, .redis (.zadd ..), _ =>
      (world.redis.scores .roomLoad).lookup instanceId = current
  | _, _, _, _ => True

/-- The score of an instance counts its bindings and the decrements still owed. -/
def Balanced (world : World) (phases : Multiset Phase) : Prop :=
  ∀ instanceId, world.redis.score .roomLoad instanceId =
    bindingCount world instanceId + (phases.map (Phase.debt instanceId)).sum

def outline : Outline threads.system where
  guard := guard
  inv state phases := Balanced state.1 phases
  asserts _ _ _ := True

theorem balanced_cons {world : World} {phase : Phase} {others : Multiset Phase} :
    Balanced world (phase ::ₘ others) ↔ ∀ instanceId,
      world.redis.score .roomLoad instanceId =
        bindingCount world instanceId + (phase.debt instanceId +
          (others.map (Phase.debt instanceId)).sum) := by
  simp only [Balanced, Multiset.map_cons, Multiset.sum_cons, Int.natCast_add]

@[simp] theorem balanced_idle {world : World} {others : Multiset Phase} :
    Balanced world (.idle ::ₘ others) ↔ Balanced world others := by
  rw [balanced_cons]
  simp only [Phase.debt, Int.natCast_zero, zero_add]
  exact Iff.rfl

@[simp] theorem balanced_zero {world : World} : Balanced world 0 ↔ Exact world := by
  simp only [Balanced, Exact, Multiset.map_zero, Multiset.sum_zero, Int.natCast_zero, add_zero]

/-! ## Each step keeps the balance -/

/-- A step that neither binds nor counts keeps the balance. -/
theorem Balanced.frame {world after : World} {op : Op} {reply : op.Reply}
    {phases : Multiset Phase} (balanced : Balanced world phases)
    (step : World.exec op world reply after)
    (unbinding : ¬ op.IsRedis Command.WritesBindings)
    (uncounting : ¬ op.IsRedis (Command.WritesScores .roomLoad)) : Balanced after phases := by
  have keeps := World.exec_keepsRedis step
  intro instanceId
  have same := balanced instanceId
  unfold bindingCount Redis.score at *
  rw [keeps.bindings unbinding, keeps.scores _ uncounting]
  exact same

/-- The commands after which a run is still where it was. -/
def Idle (op : Op) : Prop :=
  ¬ op.IsRedis Command.WritesBindings ∧ ¬ op.IsRedis (Command.WritesScores .roomLoad) ∧
    ∀ reply, Phase.idle.advance op reply = .idle

theorem inert_of_idle (op : Op) (idle : Idle op) :
    outline.Inert Phase.idle op where
  asserts _ := trivial
  keeps := by
    rintro ⟨world, ghost⟩ others reply ⟨world', ghost'⟩ balanced ⟨effect, -, -⟩
    exact balanced.frame effect idle.1 idle.2.1
  still := idle.2.2

/-- Reading the score keeps the debt. -/
theorem Balanced.scored {world : World} {instanceId : InstanceId} {current : Option ℤ}
    {others : Multiset Phase} (balanced : Balanced world (.owes instanceId ::ₘ others)) :
    Balanced world (.scored instanceId current ::ₘ others) :=
  balanced_cons.mpr fun query => balanced_cons.mp balanced query

/-- Writing back the score that is still there pays the debt. -/
theorem Balanced.pay {world : World} {instanceId : InstanceId} {current : Option ℤ}
    {others : Multiset Phase} (balanced : Balanced world (.scored instanceId current ::ₘ others))
    (unchanged : (world.redis.scores .roomLoad).lookup instanceId = current) :
    Balanced { world with redis := world.redis.zadd .roomLoad instanceId (decremented current) }
      (.idle ::ₘ others) := by
  rw [balanced_cons] at balanced ⊢
  intro query
  have owed := balanced query
  have read : world.redis.score .roomLoad instanceId = current.getD 0 := by
    rw [Redis.score, unchanged]
  change (world.redis.zadd .roomLoad instanceId (decremented current)).score .roomLoad query =
    bindingCount world query + _
  rw [Redis.score_zadd]
  simp only [Phase.debt] at owed ⊢
  by_cases same : query = instanceId
  · subst same
    rw [if_pos rfl, read] at owed
    rw [if_pos rfl, decremented]
    split <;> omega
  · rw [if_neg (Ne.symm same)] at owed
    rw [if_neg same]
    exact owed

theorem decrementSfuRoomLoad_safe (instanceId : InstanceId) :
    outline.Safe (fun phase _ => phase = .idle) (.owes instanceId)
      (decrementSfuRoomLoad instanceId).run := by
  refine Threads.safe_redis fun world _ others balanced _ => ⟨trivial, ?_⟩
  rintro current redis ⟨rfl, rfl⟩ -
  refine ⟨balanced.scored, ?_⟩
  refine Threads.safe_redis fun world _ others balanced unchanged => ⟨trivial, ?_⟩
  rintro _ redis rfl -
  refine ⟨balanced.pay unchanged, ?_⟩
  split
  · refine Outline.Safe.of_only (Program.Only.mono inert_of_idle ?_)
    refine ⟨⟨id, id, fun _ => rfl⟩, fun now => updateSfuIdleSince_only ?_ fun record => ?_⟩
    · exact ⟨id, id, fun _ => rfl⟩
    · exact ⟨id, id, fun _ => rfl⟩
  · rfl

/-- Deleting the binding that was read leaves a debt to its instance. -/
theorem Balanced.close {world : World} {roomId : RoomId} {instanceId : Option InstanceId}
    {others : Multiset Phase} (balanced : Balanced world (.found roomId instanceId ::ₘ others))
    (same : ∀ hash ∈ world.redis.bindings.lookup roomId,
      hash.get "sfu_instance_id" = instanceId) :
    Balanced { world with redis := world.redis.delHash (.binding roomId) }
      ((Phase.found roomId instanceId).advance (.redis (.del (.binding roomId)))
        (.ok (if (world.redis.hash (.binding roomId)).isSome then 1 else 0)) ::ₘ others) := by
  rw [balanced_cons] at balanced ⊢
  intro query
  have before := balanced query
  have found_debt : (Phase.found roomId instanceId).debt query = 0 := rfl
  rw [found_debt] at before
  change world.redis.score .roomLoad query =
    tally (Names query) (world.redis.bindings.erase roomId) + _
  rw [before]
  cases bound : world.redis.bindings.lookup roomId with
  | none =>
      have absent : (world.redis.hash (.binding roomId)).isSome = false := by
        rw [Redis.hash, bound]
        rfl
      have kept : tally (Names query) (world.redis.bindings.erase roomId) =
          bindingCount world query :=
        tally_erase_of_not fun hash found => by rw [bound] at found; cases found
      rw [kept, absent]
      cases instanceId <;> rfl
  | some hash =>
      have present : (world.redis.hash (.binding roomId)).isSome = true := by
        rw [Redis.hash, bound]
        rfl
      have named := same hash bound
      rw [present]
      by_cases names : Names query hash
      · have fewer := tally_erase_of_holds bound names
        have instance_eq : instanceId = some query := by rw [← named]; exact names
        subst instance_eq
        simp only [Phase.advance, ↓reduceIte, one_ne_zero, Phase.debt]
        unfold bindingCount
        omega
      · have kept : tally (Names query) (world.redis.bindings.erase roomId) =
            bindingCount world query :=
          tally_erase_of_not fun other found => by
            rw [bound] at found
            cases found
            exact names
        rw [kept]
        cases instanceId with
        | none => rfl
        | some other =>
            have differs : other ≠ query := fun equal => names (by rw [Names, named, equal])
            simp only [Phase.advance, ↓reduceIte, one_ne_zero, Phase.debt, if_neg differs]

theorem closeRoomBinding_safe (roomId : RoomId) :
    outline.Safe (fun phase _ => phase = .idle) .idle (closeRoomBinding roomId).run := by
  refine Threads.safe_redis fun world _ others balanced _ => ⟨trivial, ?_⟩
  rintro instanceId redis ⟨-, rfl⟩ -
  refine ⟨balanced_cons.mpr fun query => balanced_cons.mp balanced query, ?_⟩
  refine Threads.safe_redis fun world _ others balanced same => ⟨trivial, ?_⟩
  rintro deleted redis ⟨rfl, rfl⟩ -
  refine ⟨balanced.close same, ?_⟩
  cases (world.redis.hash (.binding roomId)).isSome with
  | false => cases instanceId <;> rfl
  | true =>
      cases instanceId with
      | none => rfl
      | some instanceId =>
          refine Outline.Safe.except_bind ((decrementSfuRoomLoad_safe instanceId).mono ?_)
          rintro phase (error | _) ended
          · exact ended
          · exact ended

/-- The assignment script counts the room it binds. -/
theorem Balanced.assign {world : World} {roomId : RoomId} {ownerHost ownerPort ownerId : String}
    {best : SfuInstance} {phases : Multiset Phase} (balanced : Balanced world phases)
    (absent : world.redis.bindings.lookup roomId = none) :
    Balanced { world with redis := world.redis.assign roomId ownerHost ownerPort ownerId best }
      phases := by
  intro query
  have before := balanced query
  change (world.redis.zadd .roomLoad best.instanceId
      (world.redis.score .roomLoad best.instanceId + 1)).score .roomLoad query =
    tally (Names query) (world.redis.bindings.insert roomId
      (Redis.newBinding ownerHost ownerPort ownerId best)) + _
  have names : Names query (Redis.newBinding ownerHost ownerPort ownerId best) ↔
      query = best.instanceId := by
    rw [Names, Redis.get_newBinding]
    simp [eq_comm]
  rw [Redis.score_zadd]
  unfold bindingCount at before
  by_cases same : query = best.instanceId
  · rw [if_pos same, tally_insert_of_holds absent (names.mpr same), ← same]
    omega
  · rw [if_neg same, tally_insert_of_not absent (fun named => same (names.mp named))]
    exact before

theorem assignRoom_safe (roomId : RoomId) (ownerId : NodeId) (ownerHost : String)
    (ownerPort : UInt16) :
    outline.Safe (fun phase _ => phase = .idle) .idle
      (assignRoomToLeastLoadedSfu roomId ownerId ownerHost ownerPort).run := by
  refine Outline.Safe.inert (inert_of_idle _ ⟨id, id, fun _ => rfl⟩) fun _ now _ _ => ?_
  refine Threads.safe_redis fun world _ others balanced _ => ⟨trivial, ?_⟩
  intro reply redis effect _
  refine ⟨?_, rfl⟩
  rcases Redis.exec_assign effect with rfl | ⟨best, absent, -, rfl⟩
  · exact balanced
  · exact Balanced.assign balanced absent

/-! ## Runs -/

theorem mayFinish_idle : outline.MayFinish Phase.idle () :=
  fun _ _ balanced => balanced_idle.mp balanced

/-- An operation whose result is dropped ends idle. -/
theorem Safe.dropped {ε α : Type} {operation : ExceptT ε Call α}
    (safe : outline.Safe (fun phase _ => phase = .idle) .idle operation.run) :
    outline.Safe outline.MayFinish Phase.idle (do let _ ← operation.run) :=
  Outline.Safe.bind (safe.mono fun _ _ ended => ended ▸ mayFinish_idle)

theorem stable : outline.Stable where
  start := by
    rintro ⟨world, _⟩ others phase program _ ⟨rfl, rfl, programs⟩ balanced
    refine ⟨balanced_idle.mpr balanced, ?_⟩
    rcases programs with ⟨roomId, ownerId, ownerHost, ownerPort, rfl⟩ | ⟨roomId, rfl⟩
    · exact Safe.dropped (assignRoom_safe roomId ownerId ownerHost ownerPort)
    · exact Safe.dropped (closeRoomBinding_safe roomId)
  discard _ _ _ never := never.elim
  environment := by
    rintro ⟨world, _⟩ others ⟨after, _⟩ ⟨bindings, scores⟩ balanced query
    have before := balanced query
    unfold bindingCount Redis.score at *
    rw [bindings, scores]
    exact before

/-- **The room load is exact whenever no run is in progress**, in every run in
which no update is lost. -/
theorem exact_of_quiescent {world : World} (exact : Exact world) {pool : threads.system.Pool}
    (run : Reaches guard ⟨(world, ()), []⟩ pool) (quiescent : pool.Quiescent) :
    Exact pool.state.1 := by
  have initial : outline.Holds ⟨(world, ()), []⟩ := .of_quiescent (balanced_zero.mpr exact)
  exact balanced_zero.mp ((initial.reaches stable run).quiescent quiescent)

/-! ## Two closes at once -/

instance (world : World) (op : Op) (reply : op.Reply) :
    Decidable (threads.assumed world op reply) := inferInstanceAs (Decidable True)

/-- Two rooms are assigned to the instance. -/
def twoRooms : World := (World.fresh.assignTo "room-1").assignTo "room-2"

theorem exact_twoRooms : Exact twoRooms := by
  have fresh : Balanced World.fresh 0 := fun _ => rfl
  have first : Balanced (World.fresh.assignTo "room-1") 0 := fresh.assign rfl
  have second : Balanced twoRooms 0 := first.assign rfl
  exact balanced_zero.mp second

/-- The closes of both rooms. -/
def closes : List threads.system.Thread :=
  [⟨.idle, do let _ ← (closeRoomBinding "room-1").run⟩,
    ⟨.idle, do let _ ← (closeRoomBinding "room-2").run⟩]

theorem reaches_closes {guard : threads.system.Guard} :
    Reaches guard ⟨(twoRooms, ()), []⟩ ⟨(twoRooms, ()), closes⟩ := by
  refine reaches_start fun thread member others => ?_
  rcases List.mem_pair.mp member with rfl | rfl
  · exact ⟨rfl, rfl, .inr ⟨_, rfl⟩⟩
  · exact ⟨rfl, rfl, .inr ⟨_, rfl⟩⟩

instance : ∀ state phase op others, Decidable (guard state phase op others) := by
  intro state phase op others
  unfold guard
  split <;> infer_instance

/-- The second close reads the score after the first has written it. -/
def oneByOne : List (ℕ × Hint) :=
  [(0, {}), (1, {}), (0, {}), (1, {}), (0, {}), (0, {}), (1, {}), (1, {}), (1, {}), (1, {}),
    (1, {}), (0, {}), (0, {})]

/-- No update is lost when the closes meet only between their commands. -/
theorem exact_of_quiescent_closes : ∃ pool : threads.system.Pool,
    Reaches guard ⟨(twoRooms, ()), []⟩ pool ∧ pool.Quiescent ∧
      bindingCount pool.state.1 "sfu-1" = 0 ∧ Exact pool.state.1 := by
  have replayed : (threads.sampler.replay guard oneByOne ⟨(twoRooms, ()), closes⟩).any
      (fun pool => pool.threads.isEmpty ∧ bindingCount pool.state.1 "sfu-1" = 0) = true := by
    decide +kernel
  obtain ⟨pool, run, passed⟩ := Sampler.exists_of_replay replayed
  obtain ⟨quiescent, count⟩ := of_decide_eq_true passed
  have quiescent := List.isEmpty_iff.mp quiescent
  exact ⟨pool, reaches_closes.trans run, quiescent, count,
    exact_of_quiescent exact_twoRooms (reaches_closes.trans run) quiescent⟩

/-- Both closes delete their binding and read the score before either writes it. -/
def lostUpdate : List (ℕ × Hint) :=
  [(0, {}), (0, {}), (0, {}), (1, {}), (1, {}), (1, {}), (1, {}), (0, {}), (0, {}), (0, {})]

/-- **A decrement is lost**: both rooms of an instance are closed, and its score is
one although it has no binding left. -/
theorem lost_update : Exact twoRooms ∧ ∃ pool : threads.system.Pool,
    Reaches unguarded ⟨(twoRooms, ()), []⟩ pool ∧ pool.Quiescent ∧
      pool.state.1.redis.score .roomLoad "sfu-1" = 1 ∧
      bindingCount pool.state.1 "sfu-1" = 0 ∧ ¬ Exact pool.state.1 := by
  refine ⟨exact_twoRooms, ?_⟩
  have replayed : (threads.sampler.replay unguarded lostUpdate ⟨(twoRooms, ()), closes⟩).any
      (fun pool => pool.threads.isEmpty ∧ pool.state.1.redis.score .roomLoad "sfu-1" = 1 ∧
        bindingCount pool.state.1 "sfu-1" = 0) = true := by decide +kernel
  obtain ⟨pool, run, passed⟩ := Sampler.exists_of_replay replayed
  obtain ⟨quiescent, score, count⟩ := of_decide_eq_true passed
  refine ⟨pool, reaches_closes.trans run, List.isEmpty_iff.mp quiescent, score, count,
      fun exact => ?_⟩
  have equal := exact "sfu-1"
  rw [score, count] at equal
  cases equal

end Callifornia.RoomLoad
