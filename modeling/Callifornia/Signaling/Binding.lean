import Callifornia.Concurrency.Traces
import Callifornia.Signaling.Permission

/-! # What a message needs to have an effect

Every request that names a session checks it first. The check refuses a connection that is
bound to another session; it binds one that is bound to none.
-/

namespace Callifornia.Binding

open Concurrency Concurrency.Program FiniteMap Store Signaling Permission
open TokenFormat (openJwt)

/-- The step changes Redis or a registry, or reaches the SFU. -/
def Acts : Op → Prop
  | .redis command => ¬ command.Reads
  | .peers _ (.register ..) | .peers _ (.unregister ..) | .peers _ .clear => True
  | .sessions _ (.get _) => False
  | .sessions .. | .createPeer .. | .deletePeer .. | .handleSdp .. | .addIceCandidate ..
  | .closeRoomsBySfu _ => True
  | _ => False

/-- The session a message names. -/
def named : ClientMessage → Option SessionId
  | .attach _ => none
  | .logout sessionId _ | .sdp sessionId .. | .candidate sessionId .. | .create sessionId
  | .join sessionId _ | .leave sessionId .. => some sessionId

/-- The message makes use of a session that should be there. -/
def Uses : ClientMessage → Prop
  | .logout .. | .sdp .. | .candidate .. | .leave .. => True
  | _ => False

/-- A message with its result, and the steps its handler took. -/
abbrev Record := Entry × List Op

def entries (history : List Record) : List Entry := history.map Prod.fst

/-- A step of the task of a connection that is permitted. -/
def Permitted (connection : ConnectionId) (lets : Op → Prop)
    (permits : (op : Op) → op.Reply → Prop) (op : Op) (before : World) (reply : op.Reply)
    (after : World) : Prop :=
  Turn connection lets op before reply after ∧ permits op reply

/-- The messages of one connection so far, the latest first. What is permitted to a message
depends on the earlier ones. -/
inductive Conversation (state : State) (connection : ConnectionId) (jwt : Jwt) (lets : Op → Prop)
    (allows : List Entry → ClientMessage → (op : Op) → op.Reply → Prop) :
    List Record → World → Prop
  | start {world : World} : contextOf connection world = {} →
      Conversation state connection jwt lets allows [] world
  | turn {history : List Record} {before after : World} {message : ClientMessage}
      {result : Except WsHandlerError Unit} {steps : List Op} :
      Conversation state connection jwt lets allows history before → Open (entries history) →
      (handleClientMessage state connection jwt message).run.Runs
        (Noted (Permitted connection lets (allows (entries history) message))) (before, []) result
          (after, steps) →
      Conversation state connection jwt lets allows (((message, result), steps) :: history) after

section

variable (jwt : Jwt) (secret : String)

/-- An attach has been completed and no logout since. -/
def Attached (history : List Entry) : Prop := Covered jwt secret (fun _ => True) history

/-- Whenever a Leave, Logout, Sdp or Candidate acted, its session was attached. -/
def ActsAttached : List Record → Prop
  | [] => True
  | ((message, _), steps) :: earlier => ActsAttached earlier ∧
      ∀ sessionId ∈ named message, Uses message → (∃ op ∈ steps, Acts op) →
        Covered jwt secret (·.sessionId = sessionId) (entries earlier)

/-- The reply shows no session with a nickname. -/
def Missing : (op : Op) → op.Reply → Prop
  | .redis (.hgetall (.session _)), .ok values =>
      (SessionState.ofFields values).filter (·.nickname ≠ "") = none
  | _, _ => True

/-- A connection that is not attached names no session that exists. -/
def Heeds (history : List Entry) (message : ClientMessage) (op : Op) (reply : op.Reply) : Prop :=
  (named message).isSome = true → ¬ Attached jwt secret history → Missing op reply

end

/-! ## Steps that do not act -/

theorem exec_of_reads {command : Command} (reads : command.Reads) {now : ℕ} {store after : Redis}
    {reply : command.Reply} (effect : Redis.exec now command store reply after) :
    after = store := by
  cases command <;> first | exact reads.elim | exact effect.2 | exact effect

/-- Other steps change neither Redis nor a registry, nor what the SFUs hold. -/
theorem still_of_not_acts {op : Op} (still : ¬ Acts op) {before after : World} {reply : op.Reply}
    (step : World.exec op before reply after) :
    after.redis = before.redis ∧ after.nodes = before.nodes ∧
      after.sfuPeers = before.sfuPeers := by
  have same (node : NodeId) : before.setNode node (before.nodes node) = before :=
    congrArg (fun nodes => { before with nodes }) (Function.update_eq_self node before.nodes)
  cases op with
  | redis command =>
      obtain ⟨value, redis, effect, rfl, rfl⟩ := step
      obtain rfl := exec_of_reads (not_not.mp still) effect
      exact ⟨rfl, rfl, rfl⟩
  | peers node command =>
      obtain ⟨peers, effect, rfl⟩ := step
      cases command with
      | register roomId nickname entry => exact absurd trivial still
      | unregister roomId nickname => exact absurd trivial still
      | clear => exact absurd trivial still
      | _ =>
          obtain ⟨-, rfl⟩ : _ ∧ peers = (before.nodes node).peers := effect
          exact ⟨rfl, congrArg World.nodes (same node), rfl⟩
  | sessions node command =>
      obtain ⟨sessions, effect, rfl⟩ := step
      cases command with
      | get sessionId =>
          obtain ⟨-, rfl⟩ := effect
          exact ⟨rfl, congrArg World.nodes (same node), rfl⟩
      | _ => exact absurd trivial still
  | trySend sender message =>
      obtain ⟨-, rfl⟩ := step
      split <;> exact ⟨rfl, rfl, rfl⟩
  | sendMessage own message =>
      rw [show after = _ from step]
      split <;> exact ⟨rfl, rfl, rfl⟩
  | outOfFuel => exact reply.elim
  | unixNow | newUuid | getContext =>
      obtain ⟨-, rfl⟩ := step
      exact ⟨rfl, rfl, rfl⟩
  | setContext | pingSignaling | pingSfu =>
      rw [show after = _ from step]
      exact ⟨rfl, rfl, rfl⟩
  | _ => exact absurd trivial still

/-- A run without steps that act changes nothing of this. -/
theorem still_of_run {α : Type} {program : Call α} {before after : World × List Op} {result : α}
    (run : program.Runs (Noted World.exec) before result after)
    (still : ∀ op ∈ after.2, ¬ Acts op) :
    after.1.redis = before.1.redis ∧ after.1.nodes = before.1.nodes ∧
      after.1.sfuPeers = before.1.sfuPeers := by
  induction program generalizing before with
  | ret value =>
      obtain ⟨-, rfl⟩ := run
      exact ⟨rfl, rfl, rfl⟩
  | call op next ih =>
      obtain ⟨reply, middle, ⟨step, noted⟩, rest⟩ := run
      have own : op ∈ after.2 := rest.notes_subset (noted ▸ List.mem_cons_self)
      obtain ⟨redis, nodes, peers⟩ := still_of_not_acts (still op own) step
      obtain ⟨redis', nodes', peers'⟩ := ih reply rest
      exact ⟨redis'.trans redis, nodes'.trans nodes, peers'.trans peers⟩

/-! ## The check -/

variable {state : State} {connection : ConnectionId} {sessionId : SessionId} {jwt : Jwt}
  {secret : String} {history : List Entry} {message : ClientMessage}
  {lets : Op → Prop} {permits : (op : Op) → op.Reply → Prop} {α β : Type}

/-- No step that acts has been taken. -/
def Quiet (before after : World × List Op) : Prop := ∀ op ∈ after.2, op ∈ before.2 ∨ ¬ Acts op

theorem Quiet.trans {first second third : World × List Op} (left : Quiet first second)
    (right : Quiet second third) : Quiet first third :=
  fun op member => (right op member).elim (left op) .inr

/-- A check that fails has done nothing. -/
theorem quiet_of_refused {before after : World × List Op} {error : WsHandlerError}
    (run : (checkSession state connection sessionId).run.Runs
      (Noted (Permitted connection lets permits)) before (.error error) after) :
    Quiet before after := by
  have recalls : (getContext connection).Only fun op => ¬ Acts op := issue_only id
  have reads {ε : Type} {onFailure : RedisFailure → ε} (command : Command)
      (quiet : command.Reads) : (redisCommand onFailure command).run.Only fun op => ¬ Acts op :=
    redisCommand_only (not_not_intro quiet)
  have available : requireRedis.run.Only fun op => ¬ Acts op := by
    refine (Only.lift (State.isRedisAvailable_only (not_not_intro trivial))).except_bind
      fun up => ?_
    cases up <;> trivial
  have looks : (redis (sessionGet sessionId)).run.Only fun op => ¬ Acts op :=
    Only.adapt ((reads (.hgetall _) trivial).except_bind fun _ => trivial)
  obtain ⟨context, first, recalled, rest⟩ := runs_lift_bind.mp run
  have quiet : Quiet before first := recalls.notes recalled
  clear run
  change (if context.sessionId.any (· ≠ sessionId) = true then _ else _ :
    WsCall SessionState).run.Runs _ _ _ _ at rest
  split at rest
  · obtain ⟨-, rfl⟩ := rest
    exact quiet
  obtain ⟨up, second, checked, rest⟩ := runs_except_bind.mp rest
  have quiet := quiet.trans (available.notes checked)
  cases up with
  | error error =>
      obtain ⟨-, rfl⟩ := rest
      exact quiet
  | ok _ =>
      obtain ⟨found, third, read, rest⟩ := runs_except_bind.mp rest
      have quiet := quiet.trans (looks.notes read)
      cases found with
      | error error =>
          obtain ⟨-, rfl⟩ := rest
          exact quiet
      | ok found =>
          dsimp only at rest
          split at rest
          · obtain ⟨-, rfl⟩ := rest
            exact quiet
          · obtain ⟨_, _, -, rest⟩ := runs_lift_bind.mp rest
            obtain ⟨_, _, -, impossible, -⟩ := runs_lift_bind.mp rest
            cases impossible

/-- A check that succeeds has found the session. -/
theorem permits_of_checked {before after : World} {session : SessionState}
    (run : (checkSession state connection sessionId).run.Runs (Permitted connection lets permits)
      before (.ok session) after) :
    ∃ values, permits (.redis (.hgetall (.session sessionId))) (.ok values) ∧
      ¬ Missing (.redis (.hgetall (.session sessionId))) (.ok values) := by
  obtain ⟨context, first, -, rest⟩ := runs_lift_bind.mp run
  clear run
  change (if context.sessionId.any (· ≠ sessionId) = true then _ else _ :
    WsCall SessionState).run.Runs _ _ _ _ at rest
  split at rest
  · cases rest.1
  obtain ⟨up, second, -, rest⟩ := runs_except_bind.mp rest
  cases up with
  | error error => cases rest.1
  | ok _ =>
      obtain ⟨found, third, read, rest⟩ := runs_except_bind.mp rest
      cases found with
      | error error => cases rest.1
      | ok found =>
          obtain ⟨outcome, lookup, renamed⟩ := runs_adapt.mp read
          obtain ⟨looked, fourth, asked, returned⟩ := runs_except_bind.mp lookup
          obtain ⟨reply, _, ⟨-, permitted⟩, answered, rfl⟩ := asked
          cases reply with
          | error failure =>
              subst answered
              obtain ⟨rfl, -⟩ := returned
              cases renamed
          | ok values =>
              subst answered
              obtain ⟨rfl, -⟩ := returned
              cases renamed
              refine ⟨values, permitted, fun missing => ?_⟩
              dsimp only at rest
              rw [show (SessionState.ofFields values).filter (·.nickname ≠ "") = none from missing]
                at rest
              cases rest.1

/-! ## What follows the check -/

/-- The program does nothing before it has checked the session. -/
def Gated (state : State) (connection : ConnectionId) (lets : Op → Prop)
    (permits : (op : Op) → op.Reply → Prop) (sessionId : SessionId) (program : WsCall α) : Prop :=
  ∀ before result after,
    program.run.Runs (Noted (Permitted connection lets permits)) before result after →
    (∃ session middle, (checkSession state connection sessionId).run.Runs
      (Permitted connection lets permits) before.1 (.ok session) middle) ∨
    (∃ error, result = .error error) ∧ Quiet before after

theorem gated_check :
    Gated state connection lets permits sessionId (checkSession state connection sessionId) := by
  intro before result after run
  cases result with
  | ok session => exact .inl ⟨session, after.1, run.unnoted⟩
  | error error => exact .inr ⟨⟨error, rfl⟩, quiet_of_refused run⟩

theorem Gated.bind {program : WsCall α} {rest : α → WsCall β}
    (gated : Gated state connection lets permits sessionId program) :
    Gated state connection lets permits sessionId (program >>= rest) := by
  intro before result after run
  obtain ⟨value, middle, first, run⟩ := runs_except_bind.mp run
  rcases gated before value middle first with checked | ⟨⟨error, rfl⟩, quiet⟩
  · exact .inl checked
  · obtain ⟨rfl, rfl⟩ := run
    exact .inr ⟨⟨error, rfl⟩, quiet⟩

theorem gated_of_uses (uses : Uses message) (names : named message = some sessionId) :
    Gated state connection lets permits sessionId (handleClientMessage state connection jwt
      message) := by
  cases message with
  | leave =>
      cases names
      exact gated_check.bind
  | logout =>
      cases names
      exact gated_check.bind
  | sdp =>
      cases names
      exact gated_check.bind.bind
  | candidate =>
      cases names
      exact gated_check.bind.bind
  | _ => exact uses.elim

/-- The session of an attached connection is the one it has attached to. -/
def Bound (jwt : Jwt) (secret : String) (history : List Entry) (context : ConnectionContext) :
    Prop :=
  Attached jwt secret history → ∃ sessionId, context.sessionId = some sessionId ∧
    Covered jwt secret (·.sessionId = sessionId) history

/-- **Step lemma.** After a message that leaves the connection open its session is bound. -/
theorem Bound.turn {before after : ConnectionContext} {result : Except WsHandlerError Unit}
    (bound : Bound jwt state.config.connectorTokenSecret history before)
    (run : (handleClientMessage state connection jwt message).run.Runs (Remembers connection) before
      result after) (goes : result ≠ .error .writeFailed) :
    Bound jwt state.config.connectorTokenSecret ((message, result) :: history) after := by
  intro attached
  rcases turn_cases run goes with ⟨token, attaches, claims, decoded, grants⟩ | ends | ⟨other, keeps⟩
  · refine ⟨claims.sessionId, grants.session, ?_⟩
    simp only [Covered, attaches]
    exact .inl ⟨claims, decoded, rfl⟩
  · simp only [Attached, Covered, ends] at attached
  · simp only [Attached, Covered, other] at attached ⊢
    obtain ⟨sessionId, own, covered⟩ := bound attached
    exact ⟨sessionId, keeps.session _ own, covered⟩

/-- A message that acts is covered by the attach of its session. -/
theorem Bound.covers {before : World} {after : World × List Op}
    {result : Except WsHandlerError Unit}
    (bound : Bound jwt secret history (contextOf connection before))
    (run : (handleClientMessage state connection jwt message).run.Runs
      (Noted (Permitted connection MayFail (Heeds jwt secret history message))) (before, []) result
        after) (uses : Uses message) (names : named message = some sessionId)
    (acts : ∃ op ∈ after.2, Acts op) : Covered jwt secret (·.sessionId = sessionId) history := by
  rcases gated_of_uses uses names (before, []) result after run with ⟨session, middle, check⟩ |
      ⟨-, quiet⟩
  · obtain ⟨values, heeds, found⟩ := permits_of_checked check
    have attached : Attached jwt secret history := by
      by_contra detached
      exact found (heeds (by rw [names]; rfl) detached)
    obtain ⟨own, same, covered⟩ := bound attached
    have turns : (checkSession state connection sessionId).run.Runs (Turn connection MayFail)
        before (.ok session) middle :=
      check.mono fun _ _ _ _ step => step.1
    rcases checkSession_runs (remembers_runs turns) with ⟨_, -, checked⟩ | ⟨⟨_, impossible⟩, -⟩
    · exact checked.free own same ▸ covered
    · cases impossible
  · obtain ⟨op, member, acts⟩ := acts
    exact absurd acts ((quiet op member).resolve_left List.not_mem_nil)

/-- As long as the connection takes messages, its session is bound. -/
theorem bound_of_conversation {allows : List Entry → ClientMessage → (op : Op) → op.Reply → Prop}
    {records : List Record} {world : World}
    (conversation : Conversation state connection jwt MayFail allows records world)
    (goes : Open (entries records)) :
    Bound jwt state.config.connectorTokenSecret (entries records) (contextOf connection world) := by
  induction conversation with
  | start => exact fun attached => attached.elim
  | turn _ opened run ih =>
      refine (ih opened).turn (remembers_runs ?_) goes
      exact run.unnoted.mono fun _ _ _ _ step => step.1

/-- **A connection acts only on a session it attached to**, if it names no session that exists
while it is not attached, and no attach fails to be counted. -/
theorem actsAttached_of_heeds {records : List Record} {world : World}
    (conversation : Conversation state connection jwt MayFail
      (Heeds jwt state.config.connectorTokenSecret) records world) :
    ActsAttached jwt state.config.connectorTokenSecret records := by
  induction conversation with
  | start => trivial
  | turn earlier opened run ih =>
      refine ⟨ih, fun sessionId names uses acts => ?_⟩
      exact (bound_of_conversation earlier opened).covers run uses names acts

/-! ## A logout without an attach -/

/-- A run of a handler alone goes on with a conversation. -/
theorem Conversation.extend {allows : List Entry → ClientMessage → (op : Op) → op.Reply → Prop}
    {records : List Record} {before after : World} {result : Except WsHandlerError Unit}
    (conversation : Conversation state connection jwt lets allows records before)
    (opened : Open (entries records))
    (run : (handleClientMessage state connection jwt message).run.Runs World.exec before
      result after)
    (allowed : ∀ op reply, allows (entries records) message op reply) :
    ∃ steps, Conversation state connection jwt lets allows (((message, result), steps) :: records)
        after ∧
      (handleClientMessage state connection jwt message).run.Runs (Noted World.exec) (before, [])
        result (after, steps) := by
  obtain ⟨steps, noted⟩ := run.noted []
  refine ⟨steps, conversation.turn opened (noted.mono fun op first reply second step => ?_), noted⟩
  exact ⟨⟨⟨first.1, rfl, .inl step.1⟩, allowed op reply⟩, step.2⟩

/-- A logout right after the attach is covered. -/
theorem actsAttached_logout : ∃ first second world,
    Conversation sampleNode 0 openJwt MayFail
      (Heeds openJwt sampleNode.config.connectorTokenSecret)
      [((.logout "session-1" none, .ok ()), second), ((.attach firstToken, .ok ()), first)] world ∧
    ActsAttached openJwt sampleNode.config.connectorTokenSecret
      [((.logout "session-1" none, .ok ()), second), ((.attach firstToken, .ok ()), first)] := by
  obtain ⟨handled, world, run, passed⟩ := World.exists_runs
    (handleAll sampleNode 0 openJwt [.attach firstToken, .logout "session-1" none]) twoSessions
    (noHints 27)
    (fun entries _ => decide (entries =
      [(.attach firstToken, .ok ()), (.logout "session-1" none, .ok ())]))
    (by decide +kernel)
  obtain rfl := of_decide_eq_true passed
  obtain ⟨attached, middle, attach, rest⟩ := runs_bind.mp run
  obtain ⟨later, _, rest, same, rfl⟩ := runs_bind.mp rest
  obtain ⟨loggedOut, last, logout, rest⟩ := runs_bind.mp rest
  obtain ⟨_, _, ⟨rfl, rfl⟩, rfl, rfl⟩ := runs_bind.mp rest
  cases same
  have start : Conversation sampleNode 0 openJwt MayFail
      (Heeds openJwt sampleNode.config.connectorTokenSecret) [] twoSessions := .start rfl
  obtain ⟨first, attaches, -⟩ := start.extend trivial attach fun op reply names => by cases names
  have granted : Attached openJwt sampleNode.config.connectorTokenSecret
      [(.attach firstToken, .ok ())] :=
    .inl ⟨firstClaims, by decide, trivial⟩
  obtain ⟨second, conversation, -⟩ := attaches.extend (fun failed => by cases failed) logout
    fun op reply _ detached => absurd granted detached
  exact ⟨first, second, world, conversation, actsAttached_of_heeds conversation⟩

/-- **A stranger logs a user out**: a connection that has never attached deletes the session
that it names. -/
theorem acts_unattached : ∃ history world,
    Conversation sampleNode 0 openJwt (fun _ => False) (fun _ _ _ _ => True) history world ∧
    ¬ ActsAttached openJwt sampleNode.config.connectorTokenSecret history ∧
    world.redis.sessions.lookup "session-1" = none := by
  obtain ⟨handled, world, run, passed⟩ := World.exists_runs
    (handleClientMessage sampleNode 0 openJwt (.logout "session-1" none)).run twoSessions
    (noHints 14)
    (fun _ world => decide (world.redis.sessions.lookup "session-1" = none))
    (by decide +kernel)
  have deleted := of_decide_eq_true passed
  have start : Conversation sampleNode 0 openJwt (fun _ => False) (fun _ _ _ _ => True) []
      twoSessions := .start rfl
  obtain ⟨steps, conversation, noted⟩ := start.extend trivial run fun _ _ => trivial
  refine ⟨_, world, conversation, fun attached => ?_, deleted⟩
  have acts : ∃ op ∈ steps, Acts op := by
    by_contra none
    have still := (still_of_run noted fun op member acts => none ⟨op, member, acts⟩).1
    rw [show world.redis = twoSessions.redis from still] at deleted
    exact absurd deleted (by decide)
  exact attached.2 "session-1" rfl trivial acts

end Callifornia.Binding
