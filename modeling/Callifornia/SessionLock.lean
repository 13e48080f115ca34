import Callifornia.Concurrency.Transition
import Callifornia.Concurrency.Windows
import Callifornia.Runs

/-! # The lock of a session

Callers acquire the lock with tokens of their own and release it, and its key may expire.
Whatever else is done meanwhile leaves the keys of locks alone.
-/

namespace Callifornia.SessionLock

open Concurrency Concurrency.Program FiniteMap Store Signaling

/-- The token in the lock of a session. -/
def holder (world : World) (sessionId : SessionId) : Option String :=
  (world.redis.strings.lookup (.sessionLock sessionId)).map StringValue.value

/-- What happens to locks. -/
inductive Event
  /-- The call of an owner, and whether it succeeded. -/
  | acquire (sessionId : SessionId) (owner : String) (acquired : Bool)
  /-- The call of an owner, and whether it deleted the key. -/
  | release (sessionId : SessionId) (owner : String) (deleted : Bool)
  /-- Time passes; the locks that expire. -/
  | elapse (expired : SessionId → Prop)
  | other

/-- The key of the lock is there before a step and not after it. -/
def Gone (before after : World) (sessionId : SessionId) : Prop :=
  (holder before sessionId).isSome = true ∧ holder after sessionId = none

instance (before after : World) (sessionId : SessionId) : Decidable (Gone before after sessionId) :=
  inferInstanceAs (Decidable (_ ∧ _))

/-- One call, or one step of the surroundings. -/
inductive Step : Event → World → World → Prop
  | acquires {sessionId : SessionId} {owner : String} {ttlMs : ℕ} {acquired : Bool}
      {before after : World} :
      (acquireSessionLock sessionId owner ttlMs).run.Runs World.exec before (.ok acquired) after →
      Step (.acquire sessionId owner acquired) before after
  | releases {sessionId : SessionId} {owner : String} {before after : World} :
      (releaseSessionLock sessionId owner).run.Runs World.exec before (.ok ()) after →
      Step (.release sessionId owner (decide (Gone before after sessionId))) before after
  | elapses {before : World} {time : ℕ} : before.now ≤ time →
      Step (.elapse (Gone before (before.elapse time))) before (before.elapse time)
  | others {before after : World} :
      (∀ sessionId, after.redis.strings.lookup (.sessionLock sessionId) =
        before.redis.strings.lookup (.sessionLock sessionId)) → Step .other before after

/-- The owner has acquired the lock. -/
def Event.Acquires (sessionId : SessionId) (owner : String) (event : Event) : Prop :=
  event = .acquire sessionId owner true

/-- Somebody has acquired the lock. -/
def Event.Locks (sessionId : SessionId) (event : Event) : Prop :=
  ∃ owner, event.Acquires sessionId owner

def Event.Expires (sessionId : SessionId) : Event → Prop
  | .elapse expired => expired sessionId
  | _ => False

/-- The key of the lock is deleted or expires. -/
def Event.Frees (sessionId : SessionId) (event : Event) : Prop :=
  (∃ owner, event = .release sessionId owner true) ∨ event.Expires sessionId

/-- The owner releases the lock, or it expires. -/
def Event.Ends (sessionId : SessionId) (owner : String) (event : Event) : Prop :=
  (∃ deleted, event = .release sessionId owner deleted) ∨ event.Expires sessionId

/-! ## Single steps -/

section Steps

variable {before after : World} {sessionId query : SessionId} {owner : String}

theorem acquire_runs {ttlMs : ℕ} {acquired : Bool}
    (run : (acquireSessionLock sessionId owner ttlMs).run.Runs World.exec before (.ok acquired)
      after) :
    acquired = (holder before sessionId).isNone ∧ ∀ query, holder after query =
      if query = sessionId ∧ acquired = true then some owner else holder before query := by
  obtain ⟨value, redis, effect, same, rfl⟩ := runs_redisCommand.mp run
  cases same
  obtain ⟨rfl, rfl⟩ := effect
  refine ⟨by rw [holder, Option.isNone_map], fun query => ?_⟩
  cases found : before.redis.strings.lookup (.sessionLock sessionId) with
  | some string => simp [holder]
  | none =>
      simp only [holder, Option.isNone_none, ↓reduceIte, and_true, lookup_insert_if,
        StringKey.sessionLock.injEq]
      split <;> rfl

theorem release_runs
    (run : (releaseSessionLock sessionId owner).run.Runs World.exec before (.ok ()) after)
    (query : SessionId) : holder after query =
      if query = sessionId ∧ holder before sessionId = some owner then none
      else holder before query := by
  obtain ⟨reply, middle, deletes, rest⟩ := runs_except_bind.mp run
  obtain ⟨value, redis, effect, rfl, rfl⟩ := runs_redisCommand.mp deletes
  obtain ⟨-, rfl⟩ := rest
  simp only [Redis.exec] at effect
  split at effect
  · rename_i held
    obtain ⟨-, rfl⟩ := effect
    simp only [holder, held, and_true, lookup_erase_if, StringKey.sessionLock.injEq]
    split <;> rfl
  · rename_i other
    obtain ⟨-, rfl⟩ := effect
    have unheld : ¬ holder before sessionId = some owner := other
    simp only [unheld, and_false, ↓reduceIte]

theorem elapse_holder (time : ℕ) : holder (before.elapse time) query = none ∨
    holder (before.elapse time) query = holder before query := by
  simp only [holder, World.elapse, Redis.expireUntil, lookup_filter]
  cases before.redis.strings.lookup (.sessionLock query) with
  | none => exact .inl rfl
  | some string =>
      rw [Option.filter_some]
      split
      · exact .inr rfl
      · exact .inl rfl

end Steps

/-! ## Whole runs -/

/-- What the events so far tell of the locks. -/
structure Lawful (trace : List Event) (world : World) : Prop where
  held : ∀ sessionId owner, holder world sessionId = some owner →
    Open (Event.Acquires sessionId owner) (Event.Frees sessionId) trace
  kept : ∀ sessionId owner,
    Open (Event.Acquires sessionId owner) (Event.Ends sessionId owner) trace →
    holder world sessionId = some owner
  owned : ∀ sessionId owner front back, trace = front ++ .release sessionId owner true :: back →
    Open (Event.Acquires sessionId owner) (Event.Frees sessionId) front
  exclusive : ∀ sessionId owner, Guarded (Event.Acquires sessionId owner)
    (Event.Ends sessionId owner) (Event.Locks sessionId) trace

variable {trace : List Event} {before after : World} {event : Event}

/-- What an event has to say of each lock so that the trace goes on being lawful. -/
structure Lawful.Fits (before after : World) (event : Event) : Prop where
  held : ∀ sessionId owner, holder after sessionId = some owner →
    event.Acquires sessionId owner ∨
      (holder before sessionId = some owner ∧ ¬ event.Frees sessionId)
  kept : ∀ sessionId owner, event.Acquires sessionId owner ∨
      (holder before sessionId = some owner ∧ ¬ event.Ends sessionId owner) →
    holder after sessionId = some owner
  owned : ∀ sessionId owner, event = .release sessionId owner true →
    holder before sessionId = some owner
  exclusive : ∀ sessionId, event.Locks sessionId → holder before sessionId = none

theorem Lawful.concat (lawful : Lawful trace before) (fits : Lawful.Fits before after event) :
    Lawful (trace ++ [event]) after := by
  constructor
  · intro sessionId owner holds
    rw [open_concat]
    exact (fits.held sessionId owner holds).imp_right fun ⟨held, stays⟩ =>
      ⟨lawful.held sessionId owner held, stays⟩
  · intro sessionId owner opened
    rw [open_concat] at opened
    exact fits.kept sessionId owner (opened.imp_right fun ⟨opened, stays⟩ =>
      ⟨lawful.kept sessionId owner opened, stays⟩)
  · intro sessionId owner front back whole
    rcases List.eq_nil_or_concat' back with rfl | ⟨back, last, rfl⟩
    · obtain ⟨rfl, same⟩ := List.append_inj' whole rfl
      cases same
      exact lawful.held sessionId owner (fits.owned sessionId owner rfl)
    · have grouped : trace ++ [event] =
          (front ++ .release sessionId owner true :: back) ++ [last] := by
        rw [whole, List.append_assoc, List.cons_append]
      obtain ⟨rfl, -⟩ := List.append_inj' grouped rfl
      exact lawful.owned sessionId owner front back rfl
  · intro sessionId owner
    refine guarded_concat.mpr ⟨lawful.exclusive sessionId owner, fun locks opened => ?_⟩
    cases (fits.exclusive sessionId locks).symm.trans (lawful.kept sessionId owner opened)

/-- An acquire takes a lock that is free, and leaves one that is held. -/
theorem Lawful.fits_acquires {target : SessionId} {caller : String} {acquired : Bool}
    (free : acquired = (holder before target).isNone)
    (holders : ∀ query, holder after query =
      if query = target ∧ acquired = true then some caller else holder before query) :
    Lawful.Fits before after (.acquire target caller acquired) := by
  have not_frees (sessionId : SessionId) :
      ¬ (Event.acquire target caller acquired).Frees sessionId := by
    rintro (⟨_, same⟩ | expires)
    · cases same
    · exact expires
  refine ⟨fun sessionId owner holds => ?_, fun sessionId owner known => ?_, nofun, ?_⟩
  · rw [holders] at holds
    split at holds
    · rename_i here
      obtain ⟨rfl, rfl⟩ := here
      cases holds
      exact .inl rfl
    · exact .inr ⟨holds, not_frees sessionId⟩
  · rw [holders]
    rcases known with same | ⟨held, -⟩
    · cases same
      exact if_pos ⟨rfl, rfl⟩
    · rw [if_neg, held]
      rintro ⟨rfl, rfl⟩
      rw [held] at free
      cases free
  · rintro sessionId ⟨owner, same⟩
    cases same
    exact Option.isNone_iff_eq_none.mp free.symm

/-- A release deletes the key exactly if it has the caller's token. -/
theorem gone_release_iff {target : SessionId} {caller : String}
    (holders : ∀ query, holder after query =
      if query = target ∧ holder before target = some caller then none
      else holder before query) :
    Gone before after target ↔ holder before target = some caller := by
  rw [Gone, holders]
  by_cases held : holder before target = some caller
  · simp [held]
  · rw [if_neg (fun both => held both.2)]
    refine iff_of_false ?_ held
    rintro ⟨present, absent⟩
    rw [absent] at present
    cases present

theorem Lawful.fits_releases {target : SessionId} {caller : String}
    (holders : ∀ query, holder after query =
      if query = target ∧ holder before target = some caller then none
      else holder before query) :
    Lawful.Fits before after (.release target caller (decide (Gone before after target))) := by
  have own (sessionId : SessionId) (owner : String)
      (same : Event.release target caller (decide (Gone before after target)) =
        .release sessionId owner true) :
      sessionId = target ∧ owner = caller ∧ holder before target = some caller := by
    simp only [Event.release.injEq, decide_eq_true_eq] at same
    exact ⟨same.1.symm, same.2.1.symm, (gone_release_iff holders).mp same.2.2⟩
  refine ⟨fun sessionId owner holds => ?_, fun sessionId owner known => ?_, ?_, ?_⟩
  · rw [holders] at holds
    split at holds
    · cases holds
    · rename_i other
      refine .inr ⟨holds, ?_⟩
      rintro (⟨owner, same⟩ | expires)
      · obtain ⟨rfl, rfl, held⟩ := own sessionId owner same
        exact other ⟨rfl, held⟩
      · exact expires
  · rw [holders]
    rcases known with same | ⟨held, unended⟩
    · cases same
    · rw [if_neg, held]
      rintro ⟨rfl, own⟩
      obtain rfl : caller = owner := Option.some.inj (own.symm.trans held)
      exact unended (.inl ⟨_, rfl⟩)
  · intro sessionId owner same
    obtain ⟨rfl, rfl, held⟩ := own sessionId owner same
    exact held
  · rintro sessionId ⟨owner, same⟩
    cases same

theorem Lawful.fits_elapses {expired : SessionId → Prop}
    (gone_iff : ∀ query, expired query ↔ Gone before after query)
    (holders : ∀ query, holder after query = none ∨ holder after query = holder before query) :
    Lawful.Fits before after (.elapse expired) := by
  refine ⟨fun sessionId owner holds => .inr ⟨?_, ?_⟩, fun sessionId owner known => ?_,
    nofun, ?_⟩
  · rcases holders sessionId with gone | same
    · cases gone.symm.trans holds
    · rw [← same, holds]
  · rintro (⟨_, same⟩ | expires)
    · cases same
    · cases ((gone_iff sessionId).mp expires).2.symm.trans holds
  · rcases known with same | ⟨held, unended⟩
    · cases same
    · rcases holders sessionId with gone | same
      · have present : (holder before sessionId).isSome = true := by
          rw [held]
          rfl
        exact absurd (.inr ((gone_iff sessionId).mpr ⟨present, gone⟩)) unended
      · rw [same, held]
  · rintro sessionId ⟨owner, same⟩
    cases same

theorem Lawful.fits_others (holders : ∀ query, holder after query = holder before query) :
    Lawful.Fits before after .other := by
  refine ⟨fun sessionId owner holds => .inr ⟨holders sessionId ▸ holds, ?_⟩,
    fun sessionId owner known => ?_, nofun, ?_⟩
  · rintro (⟨_, same⟩ | expires)
    · cases same
    · exact expires
  · rcases known with same | ⟨held, -⟩
    · cases same
    · rw [holders, held]
  · rintro sessionId ⟨owner, same⟩
    cases same

/-- **Step lemma.** -/
theorem Lawful.fits (step : Step event before after) : Lawful.Fits before after event := by
  cases step with
  | acquires run =>
      obtain ⟨free, holders⟩ := acquire_runs run
      exact fits_acquires free holders
  | releases run => exact fits_releases (release_runs run)
  | elapses passes => exact fits_elapses (fun _ => Iff.rfl) fun _ => elapse_holder _
  | others same => exact fits_others fun query => congrArg (Option.map _) (same query)

/-- **Run lemma.** -/
theorem Lawful.runs {events : List Event} (run : Runs Step before events after)
    (lawful : Lawful trace before) : Lawful (trace ++ events) after := by
  induction run generalizing trace with
  | nil => rwa [List.append_nil]
  | @cons before middle after event events step _ ih =>
      have next := ih (lawful.concat (Lawful.fits step))
      rwa [List.append_assoc, List.singleton_append] at next

theorem Lawful.start {world : World} (free : ∀ sessionId, holder world sessionId = none) :
    Lawful [] world := by
  refine ⟨fun sessionId owner holds => ?_, fun _ _ opened => absurd opened not_open_nil,
    fun _ _ _ _ whole => ?_, fun _ _ => guarded_nil⟩
  · cases (free sessionId).symm.trans holds
  · exact absurd whole (List.append_ne_nil_of_right_ne_nil _ (List.cons_ne_nil _ _)).symm

/-- **The lock protocol is safe.** A release deletes the key only while it holds what the
owner's own acquire has put there, and from an owner's acquire until its release or the end of
the key nobody acquires the lock. -/
theorem lock_safe {events : List Event} {start after : World}
    (free : ∀ sessionId, holder start sessionId = none) (run : Runs Step start events after) :
    (∀ sessionId owner front back, events = front ++ .release sessionId owner true :: back →
      Open (Event.Acquires sessionId owner) (Event.Frees sessionId) front) ∧
    ∀ sessionId owner, Guarded (Event.Acquires sessionId owner) (Event.Ends sessionId owner)
      (Event.Locks sessionId) events := by
  have lawful := Lawful.runs run (Lawful.start free)
  exact ⟨lawful.owned, lawful.exclusive⟩

/-! ## A late release -/

/-- A call that finds the lock free acquires it. -/
theorem Step.acquires_free {world : World} {sessionId : SessionId} (owner : String) (ttlMs : ℕ)
    (free : holder world sessionId = none) :
    ∃ after, Step (.acquire sessionId owner true) world after ∧
      after = { world with redis := { world.redis with
        strings := world.redis.strings.insert (.sessionLock sessionId)
          ⟨owner, some (world.now + ttlMs)⟩ } } := by
  have absent : world.redis.strings.lookup (.sessionLock sessionId) = none :=
    Option.map_eq_none_iff.mp free
  refine ⟨_, @Step.acquires sessionId owner ttlMs true world _
    (runs_redisCommand.mpr ⟨true, _, ⟨?_, ?_⟩, rfl, rfl⟩), rfl⟩
  · rw [absent]
    rfl
  · rw [absent]
    rfl

/-- The release of somebody else leaves the lock alone. -/
theorem Step.releases_other {world : World} {sessionId : SessionId} {owner other : String}
    (held : holder world sessionId = some other) (apart : other ≠ owner) :
    Step (.release sessionId owner false) world world := by
  have unheld : ¬ (world.redis.strings.lookup (.sessionLock sessionId)).map StringValue.value =
      some owner := fun same => apart (Option.some.inj (held.symm.trans same))
  have run : (releaseSessionLock sessionId owner).run.Runs World.exec world (.ok ()) world := by
    refine runs_except_bind.mpr
      ⟨.ok 0, world, runs_redisCommand.mpr ⟨0, world.redis, ?_, rfl, rfl⟩, rfl, rfl⟩
    simp only [Redis.exec, if_neg unheld, and_self]
  have stays : ¬ Gone world world sessionId := by
    rintro ⟨-, gone⟩
    cases held.symm.trans gone
  have step := Step.releases run
  rwa [decide_eq_false stays] at step

/-- Alice's lock expires, Bob acquires it, and her late release leaves it alone. -/
theorem lock_safe_late_release : ∃ expired after,
    (let events : List Event := [.acquire "session-1" "alice" true, .elapse expired,
      .acquire "session-1" "bob" true, .release "session-1" "alice" false]
    Runs Step World.fresh events after ∧ holder after "session-1" = some "bob" ∧
      (∀ sessionId owner front back, events = front ++ .release sessionId owner true :: back →
        Open (Event.Acquires sessionId owner) (Event.Frees sessionId) front) ∧
      ∀ sessionId owner, Guarded (Event.Acquires sessionId owner) (Event.Ends sessionId owner)
        (Event.Locks sessionId) events) := by
  obtain ⟨locked, first, bound⟩ := @Step.acquires_free World.fresh "session-1" "alice" 10 rfl
  have gone : holder (locked.elapse 20) "session-1" = none := by
    rw [bound]
    decide
  have expires := @Step.elapses locked 20 (by
    rw [bound]
    decide)
  obtain ⟨relocked, again, bound⟩ := Step.acquires_free "bob" 10 gone
  have held : holder relocked "session-1" = some "bob" := by
    rw [bound, holder, Finmap.lookup_insert]
    rfl
  have late := Step.releases_other held (show "bob" ≠ "alice" by decide)
  have run := Runs.cons first (.cons expires (.cons again (.cons late .nil)))
  exact ⟨_, relocked, run, held, lock_safe (fun _ => rfl) run⟩

end Callifornia.SessionLock
