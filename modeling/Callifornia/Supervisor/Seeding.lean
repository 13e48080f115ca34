import Callifornia.Signaling.Assignment
import Callifornia.Supervisor.Storage

/-! # Seeding the inventory

At its start the supervisor writes the configured SFUs into the store. What it knows of an SFU
stays, and of several entries with one id the last one counts.
-/

namespace Callifornia.Supervisor

open Concurrency Concurrency.Program FiniteMap Store Signaling.Assignment

structure SfuCandidate where
  instanceId : InstanceId
  grpcAddr : Address
  maxRooms : ℕ
  deriving DecidableEq

/-- The record of an entry, which may have one already. -/
def seedRecord (now : ℤ) (candidate : SfuCandidate) : Option SfuInstance → SfuInstance
  | some record => { record with grpcAddr := candidate.grpcAddr, maxRooms := candidate.maxRooms }
  | none =>
      { instanceId := candidate.instanceId
        grpcAddr := candidate.grpcAddr
        maxRooms := candidate.maxRooms
        alive := false
        state := "unknown"
        lastPingUnix := 0
        idleSinceUnix := now }

def seedSfu (now : ℤ) (candidate : SfuCandidate) : StoreCall Unit := do
  let existing ← command (.hgetInstance candidate.instanceId)
  let record := seedRecord now candidate existing
  command (.hsetInstance record.instanceId record)
  let existingLoad ← command (.zscore .roomLoad record.instanceId)
  if existingLoad.isNone then command (.zadd .roomLoad record.instanceId 0)
  else return ()

def seedSfuInventory (inventory : List SfuCandidate) : StoreCall Unit := do
  let now ← unixNow
  inventory.forM (seedSfu now)

namespace Seeding

/-! ## What is written -/

/-- What one entry changes in the store. -/
def seed (now : ℤ) (store : Redis) (candidate : SfuCandidate) : Redis :=
  let record := seedRecord now candidate (store.instances.lookup candidate.instanceId)
  let saved := { store with instances := store.instances.insert record.instanceId record }
  if ((store.scores .roomLoad).lookup record.instanceId).isNone then
    saved.zadd .roomLoad record.instanceId 0
  else saved

theorem seedSfu_runs {now : ℤ} {candidate : SfuCandidate} {world after : World}
    {result : Except Failure Unit} :
    (seedSfu now candidate).run.Runs World.exec world result after ↔
      result = .ok () ∧ after = { world with redis := seed now world.redis candidate } := by
  unfold seed
  constructor
  · intro run
    obtain ⟨_, _, ⟨rfl, rfl⟩, run⟩ := runs_redisCommand_bind.mp run
    obtain ⟨_, _, rfl, run⟩ := runs_redisCommand_bind.mp run
    obtain ⟨_, _, ⟨rfl, rfl⟩, run⟩ := runs_redisCommand_bind.mp run
    split at run
    · obtain ⟨_, _, rfl, rfl, rfl⟩ := runs_redisCommand.mp run
      exact ⟨rfl, by rw [if_pos ‹_›]⟩
    · obtain ⟨rfl, rfl⟩ := run
      exact ⟨rfl, by rw [if_neg ‹_›]⟩
  · rintro ⟨rfl, rfl⟩
    refine runs_redisCommand_bind.mpr ⟨_, _, ⟨rfl, rfl⟩, ?_⟩
    refine runs_redisCommand_bind.mpr ⟨(), _, rfl, ?_⟩
    refine runs_redisCommand_bind.mpr ⟨_, _, ⟨rfl, rfl⟩, ?_⟩
    split
    · exact runs_redisCommand.mpr ⟨(), _, rfl, rfl, by rw [if_pos ‹_›]⟩
    · exact ⟨rfl, by rw [if_neg ‹_›]⟩

/-- Each entry is seeded into what the entries before it left. -/
theorem forM_seedSfu_runs {now : ℤ} {inventory : List SfuCandidate} {world after : World}
    {result : Except Failure Unit} :
    (inventory.forM (seedSfu now)).run.Runs World.exec world result after ↔
      result = .ok () ∧
        after = { world with redis := inventory.foldl (seed now) world.redis } := by
  induction inventory generalizing world with
  | nil => exact Iff.rfl
  | cons candidate inventory hyp =>
      refine runs_except_bind.trans ?_
      constructor
      · rintro ⟨_, _, first, run⟩
        obtain ⟨rfl, rfl⟩ := seedSfu_runs.mp first
        exact hyp.mp run
      · intro outcome
        exact ⟨_, _, seedSfu_runs.mpr ⟨rfl, rfl⟩, hyp.mpr outcome⟩

theorem seedSfuInventory_runs {inventory : List SfuCandidate} {world after : World}
    {result : Except Failure Unit} :
    (seedSfuInventory inventory).run.Runs World.exec world result after ↔
      result = .ok () ∧ after = { world with
        redis := inventory.foldl (seed (world.now / 1000 : ℕ)) world.redis } := by
  refine runs_lift_bind.trans ⟨?_, fun outcome => ?_⟩
  · rintro ⟨_, _, clock, run⟩
    obtain ⟨rfl, rfl⟩ := runs_unixNow.mp clock
    exact forM_seedSfu_runs.mp run
  · exact ⟨_, _, runs_unixNow.mpr ⟨rfl, rfl⟩, forM_seedSfu_runs.mpr outcome⟩

/-! ## What a run leaves -/

/-- The last of the entries with an id. -/
def lastEntry (inventory : List SfuCandidate) (instanceId : InstanceId) : Option SfuCandidate :=
  inventory.reverse.find? (·.instanceId = instanceId)

/-- The record under each listed id carries that id. -/
def OwnIds (inventory : List SfuCandidate) (store : Redis) : Prop :=
  ∀ candidate ∈ inventory, ∀ record ∈ store.instances.lookup candidate.instanceId,
    record.instanceId = candidate.instanceId

section Records

variable {now later : ℤ} {candidate last : SfuCandidate} {existing : Option SfuInstance}

theorem seedRecord_instanceId
    (same : ∀ record ∈ existing, record.instanceId = candidate.instanceId) :
    (seedRecord now candidate existing).instanceId = candidate.instanceId := by
  cases existing with
  | none => rfl
  | some record => exact same record rfl

/-- The last entry counts. -/
theorem seedRecord_seedRecord (same : last.instanceId = candidate.instanceId) :
    seedRecord later candidate (some (seedRecord now last existing)) =
      seedRecord now candidate existing := by
  cases existing with
  | none => simp only [seedRecord, same]
  | some record => rfl

end Records

section Lookup

variable {now later : ℤ} {inventory : List SfuCandidate} {candidate last : SfuCandidate}
  {before store : Redis} {instanceId : InstanceId}

theorem lastEntry_append : lastEntry (inventory ++ [candidate]) instanceId =
    if candidate.instanceId = instanceId then some candidate
    else lastEntry inventory instanceId := by
  rw [lastEntry, List.reverse_append, List.reverse_singleton, List.singleton_append,
    List.find?_cons]
  by_cases same : candidate.instanceId = instanceId
  · simp only [same, decide_true, ↓reduceIte]
  · simp only [same, decide_false, ↓reduceIte]
    rfl

theorem lastEntry_of_mem (member : candidate ∈ inventory) :
    ∃ last, lastEntry inventory candidate.instanceId = some last := by
  refine Option.isSome_iff_exists.mp (List.find?_isSome.mpr ⟨candidate, ?_, decide_eq_true rfl⟩)
  exact List.mem_reverse.mpr member

theorem lastEntry_eq_none : lastEntry inventory instanceId = none ↔
    ∀ candidate ∈ inventory, candidate.instanceId ≠ instanceId := by
  simp only [lastEntry, List.find?_eq_none, List.mem_reverse, decide_eq_true_eq, ne_eq]

theorem lastEntry_some (found : lastEntry inventory instanceId = some last) :
    last ∈ inventory ∧ last.instanceId = instanceId := by
  have holds := List.find?_some found
  exact ⟨List.mem_reverse.mp (List.mem_of_find?_eq_some found), of_decide_eq_true holds⟩

/-- An entry writes its record and a load, under its own id. -/
theorem seed_eq (own : ∀ record ∈ store.instances.lookup candidate.instanceId,
      record.instanceId = candidate.instanceId) :
    seed now store candidate = { store with
        instances := store.instances.insert candidate.instanceId
          (seedRecord now candidate (store.instances.lookup candidate.instanceId)) }.setScores
      .roomLoad ((store.scores .roomLoad).insert candidate.instanceId
        (store.score .roomLoad candidate.instanceId)) := by
  rw [seed, seedRecord_instanceId own]
  cases load : (store.scores .roomLoad).lookup candidate.instanceId with
  | none =>
      simp only [Option.isNone_none, ↓reduceIte, Redis.zadd, Redis.score, load, Option.getD_none]
  | some value =>
      -- the load that is there is the one written
      have same : (store.scores .roomLoad).insert candidate.instanceId value =
          store.scores .roomLoad := by
        refine Finmap.ext_lookup fun query => ?_
        rw [lookup_insert_if]
        split
        · rw [‹query = _›, load]
        · rfl
      simp only [Option.isNone_some, Bool.false_eq_true, ↓reduceIte, Redis.score, load,
        Option.getD_some, same]
      exact (Redis.setScores_self _ _).symm

/-- What a run of the inventory has made of the records and the loads. -/
structure Run (now : ℤ) (inventory : List SfuCandidate) (before after : Redis) : Prop where
  record : ∀ instanceId, after.instances.lookup instanceId =
    match lastEntry inventory instanceId with
    | none => before.instances.lookup instanceId
    | some last => some (seedRecord now last (before.instances.lookup instanceId))
  load : ∀ instanceId, (after.scores .roomLoad).lookup instanceId =
    if (lastEntry inventory instanceId).isSome then some (before.score .roomLoad instanceId)
    else (before.scores .roomLoad).lookup instanceId
  rest : ∃ instances loads, after = { before with instances }.setScores .roomLoad loads

theorem Run.own (run : Run now inventory before store) (ids : OwnIds inventory before)
    (own : ∀ record ∈ before.instances.lookup candidate.instanceId,
      record.instanceId = candidate.instanceId) :
    ∀ record ∈ store.instances.lookup candidate.instanceId,
      record.instanceId = candidate.instanceId := by
  rw [run.record]
  cases found : lastEntry inventory candidate.instanceId with
  | none => exact own
  | some last =>
      intro record written
      obtain rfl := Option.some.inj written
      obtain ⟨member, same⟩ := lastEntry_some found
      rw [← same]
      exact seedRecord_instanceId (ids last member)

theorem Run.load_eq (run : Run now inventory before store) :
    store.score .roomLoad instanceId = before.score .roomLoad instanceId := by
  rw [Redis.score, run.load]
  split
  · rfl
  · rfl

/-- One entry more. -/
theorem Run.append (run : Run now inventory before store) (ids : OwnIds inventory before)
    (own : ∀ record ∈ before.instances.lookup candidate.instanceId,
      record.instanceId = candidate.instanceId) :
    Run now (inventory ++ [candidate]) before (seed now store candidate) := by
  rw [seed_eq (run.own ids own)]
  constructor
  · intro query
    rw [lastEntry_append]
    refine (lookup_insert_if _ _ _ _).trans ?_
    by_cases same : query = candidate.instanceId
    · subst same
      rw [if_pos rfl, if_pos rfl, run.record]
      cases found : lastEntry inventory candidate.instanceId with
      | none => rfl
      | some last => exact congrArg some (seedRecord_seedRecord (lastEntry_some found).2)
    · rw [if_neg same, if_neg (Ne.symm same), run.record]
  · intro query
    rw [lastEntry_append, Redis.scores_setScores, lookup_insert_if, run.load_eq]
    by_cases same : query = candidate.instanceId
    · subst same
      rw [if_pos rfl, if_pos rfl]
      rfl
    · rw [if_neg same, if_neg (Ne.symm same), run.load]
  · obtain ⟨instances, loads, rfl⟩ := run.rest
    exact ⟨_, _, congrArg (Redis.mk _ _ _ · _ _) (Function.update_idem ..)⟩

/-- The induction is from the end of the list, where the entry is that counts. -/
theorem Run.foldl (ids : OwnIds inventory before) :
    Run now inventory before (inventory.foldl (seed now) before) := by
  induction inventory using List.reverseRecOn with
  | nil => exact ⟨fun _ => rfl, fun _ => rfl, _, _, (before.setScores_self _).symm⟩
  | append_singleton inventory candidate hyp =>
      have earlier : OwnIds inventory before := fun other member =>
        ids other (List.mem_append_left _ member)
      rw [List.foldl_append]
      exact (hyp earlier).append earlier (ids candidate (List.mem_append_right _ (.head _)))

/-- A second run finds what the first one left. -/
theorem Run.again {after : Redis} (first : Run now inventory before store)
    (second : Run later inventory store after) : after = store := by
  have records : after.instances = store.instances := by
    refine Finmap.ext_lookup fun query => ?_
    rw [second.record, first.record]
    cases found : lastEntry inventory query with
    | none => rfl
    | some last => exact congrArg some (seedRecord_seedRecord rfl)
  have loads : after.scores .roomLoad = store.scores .roomLoad := by
    refine Finmap.ext_lookup fun query => ?_
    rw [second.load, first.load_eq, first.load]
    split
    · rfl
    · rfl
  obtain ⟨instances, scores, rfl⟩ := second.rest
  rw [Redis.scores_setScores] at loads
  subst loads
  rw [show instances = store.instances from records]
  exact store.setScores_self _

/-- **A seeded store**: the last entry of an id gives its address and its capacity, and what
was known of an instance before is kept. -/
structure Seeded (clock : ℤ) (inventory : List SfuCandidate) (before after : Redis) : Prop where
  entry : ∀ instanceId, ∀ last ∈ lastEntry inventory instanceId,
    ∃ record ∈ after.instances.lookup instanceId,
      record.grpcAddr = last.grpcAddr ∧ record.maxRooms = last.maxRooms
  known : ∀ candidate ∈ inventory, ∀ old ∈ before.instances.lookup candidate.instanceId,
    ∃ record ∈ after.instances.lookup candidate.instanceId,
      record.alive = old.alive ∧ record.state = old.state ∧
      record.lastPingUnix = old.lastPingUnix ∧ record.idleSinceUnix = old.idleSinceUnix
  fresh : ∀ candidate ∈ inventory, before.instances.lookup candidate.instanceId = none →
    ∃ record ∈ after.instances.lookup candidate.instanceId,
      record.alive = false ∧ record.state = "unknown" ∧ record.lastPingUnix = 0 ∧
      record.idleSinceUnix = clock
  load : ∀ candidate ∈ inventory, (after.scores .roomLoad).lookup candidate.instanceId =
    some (((before.scores .roomLoad).lookup candidate.instanceId).getD 0)
  unlisted : ∀ instanceId, (∀ candidate ∈ inventory, candidate.instanceId ≠ instanceId) →
    after.instances.lookup instanceId = before.instances.lookup instanceId ∧
    (after.scores .roomLoad).lookup instanceId = (before.scores .roomLoad).lookup instanceId
  rest : ∃ instances loads, after = { before with instances }.setScores .roomLoad loads

theorem Run.seeded (run : Run now inventory before store) :
    Seeded now inventory before store where
  entry instanceId last found := by
    refine ⟨_, (run.record instanceId).trans (by rw [Option.mem_def.mp found]), ?_⟩
    cases before.instances.lookup instanceId with
    | none => exact ⟨rfl, rfl⟩
    | some old => exact ⟨rfl, rfl⟩
  known candidate member old stored := by
    obtain ⟨last, found⟩ := lastEntry_of_mem member
    refine ⟨_, (run.record _).trans (by rw [found, Option.mem_def.mp stored]), ?_⟩
    exact ⟨rfl, rfl, rfl, rfl⟩
  fresh candidate member absent := by
    obtain ⟨last, found⟩ := lastEntry_of_mem member
    refine ⟨_, (run.record _).trans (by rw [found, absent]), ?_⟩
    exact ⟨rfl, rfl, rfl, rfl⟩
  load candidate member := by
    obtain ⟨last, found⟩ := lastEntry_of_mem member
    rw [run.load, found]
    rfl
  unlisted instanceId absent := by
    rw [run.record, run.load, lastEntry_eq_none.mpr absent]
    exact ⟨rfl, rfl⟩
  rest := run.rest

end Lookup

/-! ## Runs -/

/-- **Seeding keeps what is known**, and the same list changes nothing at any later time. -/
theorem seedSfuInventory_seeds {inventory : List SfuCandidate} {world : World}
    (ids : OwnIds inventory world.redis) :
    ∃ seeded, (∀ result after,
      (seedSfuInventory inventory).run.Runs World.exec world result after ↔
        result = .ok () ∧ after = { world with redis := seeded }) ∧
    Seeded (world.now / 1000 : ℕ) inventory world.redis seeded ∧
    ∀ later : World, later.redis = seeded → ∀ result after,
      (seedSfuInventory inventory).run.Runs World.exec later result after →
        result = .ok () ∧ after = later := by
  have run := @Run.foldl (world.now / 1000 : ℕ) inventory world.redis ids
  refine ⟨_, fun _ _ => seedSfuInventory_runs, run.seeded, ?_⟩
  intro later same result after again
  obtain ⟨rfl, rfl⟩ := seedSfuInventory_runs.mp again
  have ids : OwnIds inventory later.redis := by
    rw [same]
    exact fun candidate member => run.own ids (ids candidate member)
  have second := @Run.foldl (later.now / 1000 : ℕ) inventory later.redis ids
  rw [Run.again (same ▸ run) second]
  exact ⟨rfl, rfl⟩

/-- Two entries with the id of an instance that is there. -/
theorem seedSfuInventory_seeds_twice : ∃ seeded, Seeded 0
    [⟨"sfu-1", "10.0.0.2:50051", 5⟩, ⟨"sfu-1", "10.0.0.3:50051", 7⟩]
    (onlyInstance "sfu-1").redis seeded := by
  have ids : OwnIds [⟨"sfu-1", "10.0.0.2:50051", 5⟩, ⟨"sfu-1", "10.0.0.3:50051", 7⟩]
      (onlyInstance "sfu-1").redis := by
    intro candidate member record stored
    obtain ⟨same, rfl⟩ := onlyInstance_lookup stored
    exact same.symm
  obtain ⟨seeded, -, holds, -⟩ := seedSfuInventory_seeds ids
  exact ⟨seeded, holds⟩

/-- A record under another id than its own. -/
def misfiled : World :=
  { World.fresh with
    redis := { Redis.empty with
      instances := Finmap.singleton "sfu-1" (readyInstance "sfu-2") } }

/-- Its entry is written under the record's id. -/
theorem not_seeded_misfiled : ¬ ∀ (inventory : List SfuCandidate) (world after : World),
    (seedSfuInventory inventory).run.Runs World.exec world (.ok ()) after →
      Seeded (world.now / 1000 : ℕ) inventory world.redis after.redis := by
  intro seeds
  have run := seeds [⟨"sfu-1", "10.0.0.2:50051", 5⟩] misfiled _
    (seedSfuInventory_runs.mpr ⟨rfl, rfl⟩)
  obtain ⟨record, written, -, capacity⟩ := run.entry "sfu-1" _ rfl
  -- the record under the listed id is the old one
  have stored : (seed 0 misfiled.redis ⟨"sfu-1", "10.0.0.2:50051", 5⟩).instances.lookup "sfu-1" =
      some (readyInstance "sfu-2") := by decide
  obtain rfl := Option.some.inj (stored.symm.trans written)
  exact absurd capacity (by decide)

end Seeding

end Callifornia.Supervisor
