import Callifornia.Connector.Session
import Callifornia.Signaling.Effects

/-! # What the requests of the connector do to the roster -/

namespace Callifornia

open Concurrency Concurrency.Program FiniteMap Store Signaling

namespace Roster

variable (roster : Roster)

/-- Reserve a nickname for a session. -/
def reserve (nickname : Nickname) (sessionId : SessionId) : Roster :=
  { roster with reserved := Function.update roster.reserved nickname (some sessionId) }

/-- Reserve a nickname for a new session and create its hash. -/
def enroll (nickname : Nickname) (sessionId : SessionId) : Roster :=
  (((roster.draw sessionId).reserve nickname sessionId).hset sessionId "nickname" nickname).hset
    sessionId "room_id" ""

end Roster

namespace World

variable {world : World}

theorem roster_reserve {nickname : Nickname} {sessionId : SessionId} {redis : Redis} {reply : Bool}
    (effect : world.redis.exec world.now (.setNx (.nick nickname) sessionId none) reply redis) :
    (reply = true ∧ world.roster.reserved nickname = none ∧
      ({ world with redis } : World).roster = world.roster.reserve nickname sessionId) ∨
    (reply = false ∧ ({ world with redis } : World).roster = world.roster) := by
  obtain ⟨rfl, rfl⟩ := effect
  cases held : world.redis.strings.lookup (.nick nickname) with
  | some value =>
      simp only [Option.isNone_some, Bool.false_eq_true, if_false, false_and, or_true, true_and]
  | none =>
      simp only [Option.isNone_none, if_true]
      refine .inl ⟨trivial, ?_, ?_⟩
      · simp only [roster, held, Option.map_none]
      · have reserved : (fun query => ((world.redis.strings.insert (.nick nickname)
            ⟨sessionId, none⟩).lookup (.nick query)).map StringValue.value) =
            Function.update (fun query => (world.redis.strings.lookup (.nick query)).map
              StringValue.value) nickname (some sessionId) := by
          funext query
          by_cases equal : query = nickname
          · subst query
            simp only [Finmap.lookup_insert, Option.map_some, Function.update_self]
          · rw [Finmap.lookup_insert_of_ne _ fun same => equal (StringKey.nick.inj same),
              Function.update_of_ne equal]
        simp only [roster, Roster.reserve, Option.map_none, reserved]
        rfl

end World

namespace Connector

variable {exec : (op : Op) → World → op.Reply → World → Prop} {world : World}
  (sound : ∀ op before reply after, exec op before reply after → World.exec op before reply after)

/-- What a request for a session has done. -/
inductive AuthOutcome (before : Roster) : Roster → Prop
  | invalid : AuthOutcome before before
  | taken {sessionId : SessionId} : AuthOutcome before (before.draw sessionId)
  | enrolled {nickname : Nickname} {sessionId : SessionId} : sessionId ∉ before.issued →
      sessionId ≠ "" → nickname ≠ "" → before.reserved nickname = none →
      AuthOutcome before (before.enroll nickname sessionId)

/-- What a request to log a session out has done. -/
inductive LogoutOutcome (sessionId : SessionId) (before : Roster) : Roster → Prop
  | unknown : LogoutOutcome sessionId before before
  | gone : before.named sessionId ≠ "" → LogoutOutcome sessionId before
      ((before.deleteSession sessionId).release (before.named sessionId) sessionId)

section

include sound

theorem reserveNickname_ensures (nickname : Nickname) (sessionId : SessionId) :
    (redis (reserveNickname nickname sessionId)).run.Ensures exec world fun result after =>
      match result with
      | .error _ => after.roster = world.roster
      | .ok () => world.roster.reserved nickname = none ∧
          after.roster = world.roster.reserve nickname sessionId := by
  apply ensures_adapt.mpr
  have acquired : (command (.setNx (.nick nickname) sessionId none)).run.Ensures exec world
      fun result after => (result = .ok true ∧ world.roster.reserved nickname = none ∧
        after.roster = world.roster.reserve nickname sessionId) ∨
        (result = .ok false ∧ after.roster = world.roster) := by
    apply ensures_command sound
    intro value redis taken
    rcases World.roster_reserve taken with ⟨rfl, free, same⟩ | ⟨rfl, same⟩
    · exact .inl ⟨rfl, free, same⟩
    · exact .inr ⟨rfl, same⟩
  refine acquired.except_bind ?_ ?_
  · rintro value after (⟨same, free, left⟩ | ⟨same, left⟩)
    · cases same
      exact ensures_except_pure.mpr ⟨free, left⟩
    · cases same
      exact ensures_throw.mpr left
  · rintro error after (⟨same, -⟩ | ⟨same, -⟩)
    · cases same
    · cases same

theorem sessionCreate_leaves (sessionId : SessionId) (nickname : Nickname) (ttlSecs : ℕ) :
    (sessionCreate sessionId nickname ttlSecs).run.Ensures exec world (Leaves (.ok ())
      ((world.roster.hset sessionId "nickname" nickname).hset sessionId "room_id" "")) := by
  apply leaves_except_bind (hset_leaves sound sessionId "nickname" nickname)
  intro named same
  apply leaves_except_bind (hset_leaves sound sessionId "room_id" "")
  rw [same]
  intro roomed same
  have expired : (command (.expire sessionId ttlSecs)).run.Ensures exec roomed
      fun result after => (∃ value, result = .ok value) ∧ after.roster = roomed.roster := by
    apply ensures_command sound
    intro value redis taken
    have step : World.exec (.redis (.expire sessionId ttlSecs)) roomed (.ok value)
        { roomed with redis } := ⟨value, redis, taken, rfl, rfl⟩
    exact ⟨⟨value, rfl⟩, World.exec_silent step trivial⟩
  refine expired.except_bind ?_ ?_
  · rintro value after ⟨-, left⟩
    exact ensures_except_pure.mpr ⟨rfl, left.trans same⟩
  · rintro error after ⟨⟨value, impossible⟩, -⟩
    cases impossible

theorem auth_ensures (config : Config) (nickname : String) :
    (auth config nickname).run.Ensures exec world fun _ after =>
      AuthOutcome world.roster after.roster := by
  unfold auth
  split
  · exact ensures_throw.mpr .invalid
  · rename_i valid
    have drawn : (issue .newUuid).Ensures exec world fun id after =>
        (id ∉ world.roster.issued ∧ id ≠ "") ∧ after.roster = world.roster.draw id := by
      apply ensures_issue sound
      intro id after step
      obtain ⟨fresh, rfl⟩ := step
      exact ⟨fresh, rfl⟩
    apply drawn.lift_bind
    rintro sessionId drawn ⟨⟨fresh, nonempty⟩, same⟩
    refine (reserveNickname_ensures sound (trim nickname) sessionId).except_bind ?_ ?_
    · rintro _ reserved ⟨free, left⟩
      rw [same] at left free
      apply leaves_lift_bind
        (sessionCreate_leaves sound sessionId (trim nickname) config.sessionTtlSecs)
      intro after last
      apply ensures_except_pure.mpr
      rw [last, left]
      have named : trim nickname ≠ "" := by
        apply trim_ne_empty
        simpa using valid
      exact .enrolled fresh nonempty named free
    · intro error after left
      rw [show after.roster = _ from left, same]
      exact .taken

theorem releaseNickLease_ensures (nickname : Nickname) (sessionId : SessionId) :
    (releaseNickLease nickname sessionId).run.Ensures exec world fun _ after =>
      after.roster = world.roster.release nickname sessionId := by
  have released : (command (.compareAndDel (.nick nickname) sessionId)).run.Ensures exec world
      fun _ after => after.roster = world.roster.release nickname sessionId := by
    apply ensures_command sound
    intro value redis taken
    exact World.roster_release taken
  refine released.except_bind ?_ ?_
  · intro _ after left
    exact ensures_except_pure.mpr left
  · intro _ after left
    exact left

theorem sessionDelete_ensures (sessionId : SessionId) :
    (sessionDelete sessionId).run.Ensures exec world fun _ after =>
      after.roster = world.roster.deleteSession sessionId := by
  have deleted : (command (.del (.session sessionId))).run.Ensures exec world
      fun _ after => after.roster = world.roster.deleteSession sessionId := by
    apply ensures_command sound
    intro value redis taken
    obtain ⟨-, rfl⟩ := taken
    exact World.roster_deleteSession
  refine deleted.except_bind ?_ ?_
  · intro _ after left
    exact ensures_except_pure.mpr left
  · intro _ after left
    exact left

theorem logout_ensures (sessionId : SessionId) :
    (logout sessionId).run.Ensures exec world fun _ after =>
      LogoutOutcome sessionId world.roster after.roster := by
  have read : (redis (sessionGet sessionId)).run.Ensures exec world (Leaves
      (.ok ((((world.roster.sessions sessionId).bind (·.get "nickname")).filter (· ≠ "")).map
        SessionData.mk)) world.roster) := by
    have found : (command (.hget (.session sessionId) "nickname")).run.Ensures exec world (Leaves
        (.ok ((world.roster.sessions sessionId).bind (·.get "nickname"))) world.roster) := by
      apply command_leaves sound
      intro reply after taken
      exact taken
    apply leaves_adapt
    apply leaves_except_bind found
    intro middle same
    exact ensures_except_pure.mpr ⟨rfl, same⟩
  apply leaves_except_bind read
  intro middle same
  cases found : ((world.roster.sessions sessionId).bind (·.get "nickname")).filter (· ≠ "") with
  | none =>
      apply ensures_except_pure.mpr
      rw [same]
      exact .unknown
  | some nickname =>
      obtain ⟨field, nonempty⟩ := Option.filter_eq_some_iff.mp found
      have named : world.roster.named sessionId = nickname := by
        rw [Roster.named, field, Option.getD_some]
      apply (sessionDelete_ensures sound sessionId).lift_bind
      intro _ deleted left
      apply (releaseNickLease_ensures sound nickname sessionId).lift_bind
      intro _ after last
      apply ensures_except_pure.mpr
      rw [last, left, same, ← named]
      exact .gone (named.symm ▸ of_decide_eq_true nonempty)

end

end Connector

end Callifornia
