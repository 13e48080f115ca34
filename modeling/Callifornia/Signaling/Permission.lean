import Callifornia.Replay
import Callifornia.Signaling.Handlers
import Callifornia.TokenReplay

/-! # What a connection's token entitles it to

An attach records the intent and the room of its token in the connection's context, and
create and join read them there. A logout forgets the session and keeps both, and the next
request binds the connection to any session.
-/

namespace Callifornia.Permission

open Concurrency Concurrency.Program FiniteMap Store Signaling
open TokenFormat (openJwt)

/-! ## Messages and their results -/

/-- A message of the client and what its handler returned. -/
abbrev Entry := ClientMessage × Except WsHandlerError Unit

/-- What an entry means for the connection's session. -/
inductive Event
  | attached (token : String)
  | loggedOut
  | other

def event : Entry → Event
  | (.attach token, .ok ()) => .attached token
  | (.logout .., .ok ()) => .loggedOut
  | _ => .other

/-- A logout has been completed and no attach since; the latest entry is first. -/
def LoggedOut : List Entry → Prop
  | [] => False
  | entry :: earlier =>
      match event entry with
      | .attached _ => False
      | .loggedOut => True
      | .other => LoggedOut earlier

/-- The message asks to enter a room. -/
def Enters : ClientMessage → Prop
  | .create _ | .join .. => True
  | _ => False

/-- After a logout the client enters no room before it has attached again. -/
def Tidy : List Entry → Prop
  | [] => True
  | entry :: earlier => Tidy earlier ∧ (Enters entry.1 → ¬ LoggedOut earlier)

section

variable (jwt : Jwt) (secret : String)

/-- An attach with such a token has been completed and no logout since. -/
def Covered (fits : ConnectorClaims → Prop) : List Entry → Prop
  | [] => False
  | entry :: earlier =>
      match event entry with
      | .attached token => (∃ claims ∈ jwt.decode secret token, fits claims) ∨ Covered fits earlier
      | .loggedOut => False
      | .other => Covered fits earlier

/-- The entry of a room that succeeds is covered by a token for its session. -/
def EntryCovered (earlier : List Entry) : Entry → Prop
  | (.create sessionId, .ok ()) =>
      Covered jwt secret (fun claims => claims.sessionId = sessionId ∧ claims.intent = "create")
        earlier
  | (.join sessionId roomId, .ok ()) =>
      Covered jwt secret (fun claims => claims.sessionId = sessionId ∧ claims.intent = "join" ∧
        claims.roomId = some roomId) earlier
  | _ => True

/-- Every entry of a room that succeeded is covered by a token for its session. -/
def AllCovered : List Entry → Prop
  | [] => True
  | entry :: earlier => AllCovered earlier ∧ EntryCovered jwt secret earlier entry

end

/-! ## The task of a connection -/

/-- The reply reports a failure of the call. -/
def Fails : (op : Op) → op.Reply → Prop
  | .redis _, .error _ | .createPeer .., .error _ | .deletePeer .., .error _
  | .handleSdp .., .error _ | .addIceCandidate .., .error _ => True
  | _, _ => False

/-- What the task of a connection remembers. -/
def contextOf (connection : ConnectionId) (world : World) : ConnectionContext :=
  (world.connections connection).context

/-- A step of the task of a connection. Before it anything may have changed but the context,
and it may fail, with or without effect, if `lets` says so. -/
def Turn (connection : ConnectionId) (lets : Op → Prop) (op : Op) (before : World)
    (reply : op.Reply) (after : World) : Prop :=
  ∃ middle, contextOf connection middle = contextOf connection before ∧
    (World.exec op middle reply after ∨
      lets op ∧ Fails op reply ∧ contextOf connection after = contextOf connection middle)

/-- The step may fail: it is not the count of a new connection. -/
def MayFail : Op → Prop
  | .redis (.zincr ..) => False
  | _ => True

/-- A connection takes no message after a write to its socket has failed. -/
def Open : List Entry → Prop
  | [] => True
  | entry :: _ => entry.2 ≠ .error .writeFailed

/-- The messages of one connection so far, the latest first. -/
inductive Conversation (state : State) (connection : ConnectionId) (jwt : Jwt) (lets : Op → Prop) :
    List Entry → World → Prop
  | start {world : World} : contextOf connection world = {} →
      Conversation state connection jwt lets [] world
  | turn {history : List Entry} {before after : World} {message : ClientMessage}
      {result : Except WsHandlerError Unit} :
      Conversation state connection jwt lets history before → Open history →
      (handleClientMessage state connection jwt message).run.Runs (Turn connection lets) before
        result after →
      Conversation state connection jwt lets ((message, result) :: history) after

/-! ## The context alone -/

/-- A step, as far as it concerns the context. -/
def Remembers (connection : ConnectionId) : (op : Op) → ConnectionContext → op.Reply →
    ConnectionContext → Prop
  | .getContext other, before, reply, after =>
      (other = connection → reply = before) ∧ after = before
  | .setContext other change, before, _, after =>
      after = if other = connection then change before else before
  | .redis (.zincr ..), before, reply, after => (∃ value, reply = .ok value) ∧ after = before
  | _, before, _, after => after = before

/-- A write of one connection's state is no write of another's context. -/
theorem contextOf_setConnection (world : World) (id query : ConnectionId)
    (connection : Connection) : contextOf query (world.setConnection id connection) =
      if id = query then connection.context else contextOf query world := by
  unfold contextOf World.setConnection
  by_cases same : id = query
  · subst same
    rw [if_pos rfl]
    exact congrArg Connection.context (Function.update_self ..)
  · rw [if_neg same]
    exact congrArg Connection.context (Function.update_of_ne (Ne.symm same) _ _)

/-- The step may change a context. -/
def WritesContext : Op → Prop
  | .setContext .. => True
  | _ => False

/-- A step that does not write the context leaves it. -/
theorem exec_context {connection : ConnectionId} {op : Op} {before after : World} {reply : op.Reply}
    (step : World.exec op before reply after) (other : ¬ WritesContext op) :
    contextOf connection after = contextOf connection before := by
  cases op with
  | setContext => exact absurd trivial other
  | redis =>
      obtain ⟨_, _, -, -, rfl⟩ := step
      rfl
  | peers | sessions =>
      obtain ⟨_, _, rfl⟩ := step
      rfl
  | trySend sender =>
      obtain ⟨-, rfl⟩ := step
      split
      · refine (contextOf_setConnection before sender connection _).trans ?_
        split
        · rename_i same
          rw [← same]
          rfl
        · rfl
      · rfl
  | sendMessage own =>
      rw [show after = _ from step]
      split
      · refine (contextOf_setConnection before own connection _).trans ?_
        split
        · rename_i same
          rw [← same]
          rfl
        · rfl
      · rfl
  | createPeer => rcases step with ⟨_, _, _, _, rfl⟩ | ⟨_, rfl⟩ <;> rfl
  | outOfFuel => exact reply.elim
  | pingSignaling | pingSfu => rw [show after = _ from step]
  | _ =>
      obtain ⟨-, rfl⟩ := step
      rfl

/-- A step of the task changes its own context as its operation says; anything else leaves it.
-/
theorem remembers_of_turn {connection : ConnectionId} {op : Op} {before after : World}
    {reply : op.Reply} (turn : Turn connection MayFail op before reply after) :
    Remembers connection op (contextOf connection before) reply (contextOf connection after) := by
  obtain ⟨middle, kept, step⟩ := turn
  rw [← kept]
  rcases step with step | ⟨may, fails, same⟩
  · cases op with
    | setContext other change =>
        rw [show after = _ from step]
        refine (contextOf_setConnection middle other connection _).trans ?_
        split
        · rename_i same
          rw [← same]
          rfl
        · rfl
    | getContext other =>
        obtain ⟨rfl, rfl⟩ := step
        exact ⟨fun same => same ▸ rfl, rfl⟩
    | redis command =>
        have same : contextOf connection after = contextOf connection middle :=
          exec_context step id
        cases command with
        | zincr =>
            obtain ⟨value, _, -, answered, -⟩ := step
            exact ⟨⟨value, answered⟩, same⟩
        | _ => exact same
    | _ => exact exec_context step id
  · cases op with
    | setContext => exact fails.elim
    | getContext => exact fails.elim
    | redis command =>
        cases command with
        | zincr => exact may.elim
        | _ => exact same
    | _ => exact same

/-- A run of the task, as far as it concerns the context. -/
theorem remembers_runs {α : Type} {connection : ConnectionId} {program : Call α}
    {before after : World} {result : α}
    (run : program.Runs (Turn connection MayFail) before result after) :
    program.Runs (Remembers connection) (contextOf connection before) result
      (contextOf connection after) :=
  Runs.project (fun _ _ _ _ turn => remembers_of_turn turn) run

/-! ## What the handlers do to the context -/

/-- The session and the permission are the same. -/
structure Same (before after : ConnectionContext) : Prop where
  sessionId : after.sessionId = before.sessionId
  allowedIntent : after.allowedIntent = before.allowedIntent
  allowedRoomId : after.allowedRoomId = before.allowedRoomId

/-- Nothing has changed. -/
theorem Same.refl (context : ConnectionContext) : Same context context := ⟨rfl, rfl, rfl⟩

/-- What stays in two runs stays in both together. -/
theorem Same.trans {first second third : ConnectionContext} (left : Same first second)
    (right : Same second third) : Same first third :=
  ⟨right.sessionId.trans left.sessionId, right.allowedIntent.trans left.allowedIntent,
    right.allowedRoomId.trans left.allowedRoomId⟩

/-- The permission is the same, and so is the session if there is one. -/
structure Keeps (before after : ConnectionContext) : Prop where
  allowedIntent : after.allowedIntent = before.allowedIntent
  allowedRoomId : after.allowedRoomId = before.allowedRoomId
  session : ∀ sessionId, before.sessionId = some sessionId → after.sessionId = some sessionId

/-- Where the session and the permission are the same they are kept. -/
theorem Same.keeps {before after : ConnectionContext} (same : Same before after) :
    Keeps before after :=
  ⟨same.allowedIntent, same.allowedRoomId, fun _ bound => same.sessionId.trans bound⟩

/-- What is kept in two runs is kept in both together. -/
theorem Keeps.trans {first second third : ConnectionContext} (left : Keeps first second)
    (right : Keeps second third) : Keeps first third :=
  ⟨right.allowedIntent.trans left.allowedIntent, right.allowedRoomId.trans left.allowedRoomId,
    fun sessionId bound => right.session sessionId (left.session sessionId bound)⟩

/-- The step keeps the session and the permission of the connection. -/
def Modest (connection : ConnectionId) : Op → Prop
  | .setContext other change => other = connection → ∀ context, Same context (change context)
  | _ => True

variable {state : State} {connection : ConnectionId} {sessionId : SessionId} {roomId : RoomId}
  {nickname : Nickname} {before after : ConnectionContext}

/-- A program that writes no permission and no session keeps both. -/
theorem same_of_modest {α : Type} {program : Call α} {result : α}
    (only : program.Only (Modest connection))
    (run : program.Runs (Remembers connection) before result after) : Same before after := by
  refine only.runs Same.refl (fun _ _ _ => Same.trans) (fun op first reply second modest step => ?_)
    run
  cases op with
  | setContext other change =>
      rw [show second = _ from step]
      split
      · rename_i own
        exact modest own first
      · exact .refl _
  | getContext =>
      rw [step.2]
      exact .refl _
  | redis command =>
      cases command with
      | zincr =>
          rw [step.2]
          exact .refl _
      | _ =>
          rw [show second = _ from step]
          exact .refl _
  | _ =>
      rw [show second = _ from step]
      exact .refl _

/-- Parts of a handler that do not use its connection. -/
theorem serves_modest : Serves state (connection + 1) (Modest connection) where
  reads _ _ := trivial
  clock := trivial
  fuel := trivial
  recalls := trivial
  remembers _ _ own := absurd own (Nat.succ_ne_self connection)
  answers _ := trivial
  sends _ _ := trivial
  peers _ _ := trivial
  registers _ _ _ := trivial
  sessions _ := trivial
  creates _ _ _ := trivial
  deletes _ _ _ _ := trivial
  removes _ _ := trivial
  clears _ := trivial
  unbinds _ := trivial
  scores _ _ := trivial
  records _ _ := trivial

/-- An answer writes no context. -/
theorem sendMessage_modest (message : ServerMessage) :
    (sendMessage connection message).run.Only (Modest connection) := by
  refine (Only.lift (issue_only trivial)).except_bind fun sent => ?_
  cases sent <;> trivial

/-- A change that touches neither the session nor the permission. -/
theorem setContext_modest {change : ConnectionContext → ConnectionContext}
    (same : ∀ context, Same context (change context)) :
    (setContext connection change).Only (Modest connection) :=
  issue_only fun _ => same

/-- Leaving a room touches neither. -/
theorem leaveRoomOf_modest (participants : Option (List String)) (reason : String) :
    (leaveRoomOf state connection sessionId roomId nickname participants reason).run.Only
      (Modest connection) := by
  have serves : Serves state (connection + 1) (Modest connection) := serves_modest
  refine serves.requireRedis.except_bind fun _ => ?_
  refine (Only.lift (serves.leaveRoomAndNotify _ _ _)).except_bind fun _ => ?_
  refine (Only.adapt (redisCommand_only trivial)).except_bind fun _ => ?_
  refine (Only.lift (issue_only trivial)).except_bind fun _ => ?_
  exact Only.lift (setContext_modest fun _ => ⟨rfl, rfl, rfl⟩)

/-- Recording a room touches neither. -/
theorem recordRoom_modest :
    (recordRoom state connection sessionId roomId).run.Only (Modest connection) := by
  refine (Only.adapt (redisCommand_only trivial)).except_bind fun _ => ?_
  refine (Only.lift (issue_only trivial)).except_bind fun _ => ?_
  exact Only.lift (setContext_modest fun _ => ⟨rfl, rfl, rfl⟩)

/-- The connection was bound to no other session and is bound to this one now. -/
structure Checked (sessionId : SessionId) (before after : ConnectionContext) : Prop
    extends Keeps before after where
  free : ∀ other, before.sessionId = some other → other = sessionId
  binds : after.sessionId = some sessionId

/-- A check binds the connection to the session, if it had none, and keeps the permission. -/
theorem checkSession_runs {result : Except WsHandlerError SessionState}
    (run : (checkSession state connection sessionId).run.Runs (Remembers connection) before result
      after) :
    (∃ session, result = .ok session ∧ Checked sessionId before after) ∨
      (∃ error, result = .error error) ∧ Same before after := by
  have serves : Serves state (connection + 1) (Modest connection) := serves_modest
  obtain ⟨context, middle, recalled, rest⟩ := runs_lift_bind.mp run
  obtain ⟨_, _, ⟨read, rfl⟩, rfl, rfl⟩ := recalled
  obtain rfl : context = middle := read rfl
  clear run
  change (if context.sessionId.any (· ≠ sessionId) = true then _ else _ :
    WsCall SessionState).run.Runs _ _ _ _ at rest
  split at rest
  · obtain ⟨rfl, rfl⟩ := rest
    exact .inr ⟨⟨_, rfl⟩, .refl _⟩
  rename_i free
  obtain ⟨up, first, available, run⟩ := runs_except_bind.mp rest
  have same := same_of_modest serves.requireRedis available
  cases up with
  | error error =>
      obtain ⟨rfl, rfl⟩ := run
      exact .inr ⟨⟨_, rfl⟩, same⟩
  | ok _ =>
      obtain ⟨found, second, read, run⟩ := runs_except_bind.mp run
      have same := same.trans (same_of_modest (Only.adapt (serves.sessionGet sessionId)) read)
      cases found with
      | error error =>
          obtain ⟨rfl, rfl⟩ := run
          exact .inr ⟨⟨_, rfl⟩, same⟩
      | ok found =>
          dsimp only at run
          split at run
          · obtain ⟨rfl, rfl⟩ := run
            exact .inr ⟨⟨_, rfl⟩, same⟩
          · rename_i session _
            obtain ⟨_, third, bound, run⟩ := runs_lift_bind.mp run
            obtain ⟨_, _, bound, -, rfl⟩ := bound
            obtain ⟨_, fourth, upsert, rfl, rfl⟩ := runs_lift_bind.mp run
            have upserts : (state.upsertSession sessionId session).Only (Modest connection) :=
              issue_only trivial
            have kept := same_of_modest upserts upsert
            rw [show third = _ from bound, if_pos rfl] at kept
            have unique (other : SessionId) (own : context.sessionId = some other) :
                other = sessionId := by
              rw [own] at free
              simpa using free
            refine .inl ⟨session, rfl, ⟨?_, ?_, fun other own => ?_⟩, unique, kept.sessionId⟩
            · exact kept.allowedIntent.trans same.allowedIntent
            · exact kept.allowedRoomId.trans same.allowedRoomId
            · rw [unique other own]
              exact kept.sessionId

/-- A handler that checks the session and takes modest steps after it. -/
theorem keeps_of_checked {α : Type} {rest : SessionState → WsCall α}
    {result : Except WsHandlerError α}
    (only : ∀ session, (rest session).run.Only (Modest connection))
    (run : (checkSession state connection sessionId >>= rest).run.Runs (Remembers connection) before
      result after) : Keeps before after := by
  obtain ⟨checked, middle, check, run⟩ := runs_except_bind.mp run
  rcases checkSession_runs check with ⟨session, rfl, known⟩ | ⟨⟨error, rfl⟩, same⟩
  · exact known.toKeeps.trans (same_of_modest (only session) run).keeps
  · obtain ⟨-, rfl⟩ := run
    exact same.keeps

/-- A leave keeps the permission. -/
theorem handleLeave_runs {participants : Option (List String)} {result : Except WsHandlerError Unit}
    (run : (handleLeave state connection sessionId roomId participants).run.Runs
      (Remembers connection) before result after) : Keeps before after := by
  refine keeps_of_checked (fun session => ?_) run
  cases session.roomId with
  | none => trivial
  | some currentRoom =>
      change (if currentRoom ≠ roomId then _ else _ : WsCall Unit).run.Only (Modest connection)
      split
      · trivial
      · exact (leaveRoomOf_modest participants _).except_bind fun _ => sendMessage_modest _

/-- Looking up the SFU keeps the permission. -/
theorem mediaTarget_runs {result : Except WsHandlerError (SessionState × RoomId × Address)}
    (run : (mediaTarget state connection sessionId).run.Runs (Remembers connection) before result
      after) : Keeps before after := by
  refine keeps_of_checked (fun session => ?_) run
  cases session.roomId with
  | none => trivial
  | some roomId =>
      refine (Only.adapt (getRoomRoute_only trivial)).except_bind fun route => ?_
      cases route.sfuGrpcAddr <;> trivial

/-- An SDP keeps the permission. -/
theorem handleSdp_runs {sdp sdpType : String} {result : Except WsHandlerError Unit}
    (run : (handleSdp state connection sessionId sdp sdpType).run.Runs (Remembers connection) before
      result after) : Keeps before after := by
  obtain ⟨found, middle, target, run⟩ := runs_except_bind.mp run
  refine (mediaTarget_runs target).trans ?_
  cases found with
  | error error =>
      obtain ⟨-, rfl⟩ := run
      exact (Same.refl _).keeps
  | ok target =>
      refine (same_of_modest (Only.except_bind (Only.lift (issue_only ?_)) fun response => ?_)
        run).keeps
      · exact trivial
      cases response with
      | error error => trivial
      | ok response =>
          dsimp only
          cases State.ensureSuccess ⟨response.success, response.errorMessage⟩
            "SFU rejected SDP" with
          | error error => trivial
          | ok => exact sendMessage_modest _

/-- A candidate keeps the permission. -/
theorem handleCandidate_runs {candidate sdpMid : String} {result : Except WsHandlerError Unit}
    (run : (handleCandidate state connection sessionId candidate sdpMid).run.Runs
      (Remembers connection) before result after) : Keeps before after := by
  obtain ⟨found, middle, target, run⟩ := runs_except_bind.mp run
  refine (mediaTarget_runs target).trans ?_
  cases found with
  | error error =>
      obtain ⟨-, rfl⟩ := run
      exact (Same.refl _).keeps
  | ok target =>
      refine (same_of_modest (Only.except_bind (Only.lift (issue_only ?_)) fun response => ?_)
        run).keeps
      · exact trivial
      cases response with
      | error error => trivial
      | ok response =>
          dsimp only
          cases State.ensureSuccess response "SFU rejected ICE candidate" <;> trivial

/-! ## Entering a room -/

/-- A handler that holds the session's lock. -/
theorem withSessionLock_runs {handler : WsCall Unit} {result : Except WsHandlerError Unit}
    (run : (withSessionLock state sessionId handler).run.Runs (Remembers connection) before result
      after) :
    (Same before after ∧ ∃ error, result = .error error) ∨
      ∃ first last, Same before first ∧ Same last after ∧
        handler.run.Runs (Remembers connection) first result last := by
  have serves : Serves state (connection + 1) (Modest connection) := serves_modest
  obtain ⟨up, first, available, run⟩ := runs_except_bind.mp run
  have same := same_of_modest serves.requireRedis available
  cases up with
  | error error =>
      obtain ⟨rfl, rfl⟩ := run
      exact .inl ⟨same, error, rfl⟩
  | ok _ =>
      obtain ⟨lockOwner, second, drawn, run⟩ := runs_lift_bind.mp run
      have draws : (issue .newUuid).Only (Modest connection) := issue_only trivial
      have same := same.trans (same_of_modest draws drawn)
      obtain ⟨acquired, third, acquire, run⟩ := runs_except_bind.mp run
      have locks : (redis (acquireSessionLock sessionId lockOwner
          state.config.sessionLockTtlMs)).run.Only (Modest connection) :=
        Only.adapt (redisCommand_only trivial)
      have same := same.trans (same_of_modest locks acquire)
      cases acquired with
      | error error =>
          obtain ⟨rfl, rfl⟩ := run
          exact .inl ⟨same, error, rfl⟩
      | ok acquired =>
          cases acquired with
          | false =>
              obtain ⟨rfl, rfl⟩ := run
              exact .inl ⟨same, _, rfl⟩
          | true =>
              obtain ⟨handled, last, handle, run⟩ := runs_bind.mp run
              obtain ⟨_, released, release, rfl, rfl⟩ := runs_bind.mp run
              have unlocks : (releaseSessionLock sessionId lockOwner).run.Only
                (Modest connection) :=
                redisCommand_drop_only trivial
              exact .inr ⟨third, last, same, same_of_modest unlocks release, handle⟩

/-- The context allows a session to enter a room this way. -/
structure Permits (sessionId : SessionId) (intent : String) (context : ConnectionContext) :
    Prop where
  free : ∀ other, context.sessionId = some other → other = sessionId
  intended : context.allowedIntent = some intent

/-- What a request to enter a room does to the context, and when it succeeds. -/
def EntersWith (permits : ConnectionContext → Prop) (before : ConnectionContext)
    (result : Except WsHandlerError Unit) (after : ConnectionContext) : Prop :=
  Keeps before after ∧ (result = .ok () → permits before)

/-- Under the lock a handler enters a room with the permission it has without it. -/
theorem EntersWith.locked {permits : ConnectionContext → Prop} {handler : WsCall Unit}
    {result : Except WsHandlerError Unit}
    (same : ∀ {first second}, Same first second → permits second → permits first)
    (handles : ∀ {before result after},
      handler.run.Runs (Remembers connection) before result after →
      EntersWith permits before result after)
    (run : (withSessionLock state sessionId handler).run.Runs (Remembers connection) before result
      after) : EntersWith permits before result after := by
  rcases withSessionLock_runs run with ⟨kept, error, rfl⟩ | ⟨first, last, early, late, handle⟩
  · exact ⟨kept.keeps, nofun⟩
  · obtain ⟨kept, permitted⟩ := handles handle
    exact ⟨early.keeps.trans (kept.trans late.keeps), fun done => same early (permitted done)⟩

/-- A handler that admits the session and takes modest steps after it. -/
theorem EntersWith.admitted {permits : ConnectionContext → Prop} {admission : WsCall SessionState}
    {rest : SessionState → WsCall Unit} {result : Except WsHandlerError Unit}
    (admits : ∀ {result after}, admission.run.Runs (Remembers connection) before result after →
      Keeps before after ∧ ∀ session, result = .ok session → permits before)
    (only : ∀ session, (rest session).run.Only (Modest connection))
    (run : (admission >>= rest).run.Runs (Remembers connection) before result after) :
    EntersWith permits before result after := by
  obtain ⟨admitted, middle, first, run⟩ := runs_except_bind.mp run
  obtain ⟨kept, permitted⟩ := admits first
  cases admitted with
  | error error =>
      obtain ⟨rfl, rfl⟩ := run
      exact ⟨kept, nofun⟩
  | ok session =>
      refine ⟨kept.trans (same_of_modest (only session) run).keeps, fun _ => ?_⟩
      exact permitted session rfl

/-- The session and the intent that the admission of a request looks at. -/
theorem permits_of_checked {session : SessionState} {middle last : ConnectionContext}
    {intent : String} (check : (checkSession state connection sessionId).run.Runs
      (Remembers connection) before (.ok session) middle)
    (read : (issue (.getContext connection)).Runs (Remembers connection) middle last after) :
    Keeps before after ∧ last.allowedRoomId = before.allowedRoomId ∧
      (last.allowedIntent = some intent → Permits sessionId intent before) := by
  obtain ⟨_, _, ⟨recalled, rfl⟩, rfl, rfl⟩ := read
  obtain rfl : last = after := recalled rfl
  rcases checkSession_runs check with ⟨_, -, known⟩ | ⟨⟨_, impossible⟩, -⟩
  · exact ⟨known.toKeeps, known.allowedRoomId, fun intended =>
      ⟨known.free, known.allowedIntent.symm.trans intended⟩⟩
  · cases impossible

/-- A check that fails keeps the permission. -/
theorem keeps_of_check {error : WsHandlerError} (check : (checkSession state connection
    sessionId).run.Runs (Remembers connection) before (.error error) after) : Keeps before
      after := by
  rcases checkSession_runs check with ⟨_, impossible, -⟩ | ⟨-, same⟩
  · cases impossible
  · exact same.keeps

/-- A create is admitted with the permission to create only. -/
theorem admitCreate_runs {result : Except WsHandlerError SessionState}
    (run : (admitCreate state connection sessionId).run.Runs (Remembers connection) before result
      after) :
    Keeps before after ∧ ∀ session, result = .ok session → Permits sessionId "create" before := by
  obtain ⟨checked, middle, check, run⟩ := runs_except_bind.mp run
  cases checked with
  | error error =>
      obtain ⟨rfl, rfl⟩ := run
      exact ⟨keeps_of_check check, nofun⟩
  | ok session =>
      change (if session.roomId.isSome = true then _ else _ : WsCall SessionState).run.Runs
        _ _ _ _ at run
      split at run
      · obtain ⟨rfl, rfl⟩ := run
        rcases checkSession_runs check with ⟨_, -, known⟩ | ⟨⟨_, impossible⟩, -⟩
        · exact ⟨known.toKeeps, nofun⟩
        · cases impossible
      · obtain ⟨context, last, read, run⟩ := runs_lift_bind.mp run
        obtain ⟨kept, -, permits⟩ := permits_of_checked check read
        change (if context.allowedIntent ≠ some "create" then _ else _ :
          WsCall SessionState).run.Runs _ _ _ _ at run
        split at run
        · obtain ⟨rfl, rfl⟩ := run
          exact ⟨kept, nofun⟩
        · rename_i intended
          obtain ⟨-, rfl⟩ := run
          exact ⟨kept, fun _ _ => permits (not_not.mp intended)⟩

/-- A join is admitted with the permission to join that room only. -/
theorem admitJoin_runs {result : Except WsHandlerError SessionState}
    (run : (admitJoin state connection sessionId roomId).run.Runs
      (Remembers connection) before result
      after) :
    Keeps before after ∧ ∀ session, result = .ok session →
      Permits sessionId "join" before ∧ before.allowedRoomId = some roomId := by
  obtain ⟨checked, middle, check, run⟩ := runs_except_bind.mp run
  cases checked with
  | error error =>
      obtain ⟨rfl, rfl⟩ := run
      exact ⟨keeps_of_check check, nofun⟩
  | ok session =>
      change (if session.roomId.isSome = true then _ else _ : WsCall SessionState).run.Runs
        _ _ _ _ at run
      split at run
      · obtain ⟨rfl, rfl⟩ := run
        rcases checkSession_runs check with ⟨_, -, known⟩ | ⟨⟨_, impossible⟩, -⟩
        · exact ⟨known.toKeeps, nofun⟩
        · cases impossible
      · obtain ⟨context, last, read, run⟩ := runs_lift_bind.mp run
        obtain ⟨kept, room, permits⟩ := permits_of_checked check read
        change (if context.allowedIntent ≠ some "join" ∨ context.allowedRoomId ≠ some roomId then _
          else _ : WsCall SessionState).run.Runs _ _ _ _ at run
        split at run
        · obtain ⟨rfl, rfl⟩ := run
          exact ⟨kept, nofun⟩
        · rename_i intended
          obtain ⟨intends, here⟩ := not_or.mp intended
          obtain ⟨-, rfl⟩ := run
          exact ⟨kept, fun _ _ => ⟨permits (not_not.mp intends), room.symm.trans (not_not.mp here)⟩⟩

/-- A permission is the same under the same context. -/
theorem Permits.of_same {intent : String} (same : Same before after)
    (permits : Permits sessionId intent after) : Permits sessionId intent before :=
  ⟨fun other own => permits.free other (same.sessionId.trans own),
    same.allowedIntent.symm.trans permits.intended⟩

/-- A create enters a room only with the permission to create. -/
theorem create_runs {result : Except WsHandlerError Unit}
    (run : (withSessionLock state sessionId
      (handleCreateLocked state connection sessionId)).run.Runs (Remembers connection) before result
        after) : EntersWith (Permits sessionId "create") before result after := by
  have serves : Serves state (connection + 1) (Modest connection) := serves_modest
  refine EntersWith.locked Permits.of_same (fun handle => ?_) run
  refine EntersWith.admitted admitCreate_runs (fun session => ?_) handle
  refine (Only.lift (issue_only trivial)).except_bind fun roomId => ?_
  refine (Only.adapt (serves.assignRoom fun _ => trivial)).except_bind fun assignment => ?_
  refine (serves.openRoom trivial).except_bind fun _ => ?_
  refine recordRoom_modest.except_bind fun _ => ?_
  exact (sendMessage_modest _).except_bind fun _ => Only.lift (issue_only trivial)

/-- A join enters a room only with the permission to join it. -/
theorem join_runs {result : Except WsHandlerError Unit}
    (run : (withSessionLock state sessionId
      (handleJoinLocked state connection sessionId roomId)).run.Runs (Remembers connection) before
        result after) :
    EntersWith (fun context => Permits sessionId "join" context ∧
      context.allowedRoomId = some roomId) before result after := by
  have serves : Serves state (connection + 1) (Modest connection) := serves_modest
  refine EntersWith.locked (fun same permits => ?_) (fun handle => ?_) run
  · exact ⟨permits.1.of_same same, same.allowedRoomId.symm.trans permits.2⟩
  refine EntersWith.admitted admitJoin_runs (fun session => ?_) handle
  refine (serves.joinTarget roomId).except_bind fun sfuAddr => ?_
  refine (serves.enterRoom trivial).except_bind fun participants => ?_
  refine recordRoom_modest.except_bind fun _ => ?_
  refine (sendMessage_modest _).except_bind fun _ => ?_
  refine (Only.lift (issue_only trivial)).except_bind fun _ => ?_
  exact Only.lift (serves.announce _ _ _)

/-! ## Attach and logout -/

/-- A valid token decodes to its claims. -/
theorem validate_decodes {jwt : Jwt} {token secret : String} {expected : NodeId} {now : ℤ}
    {claims : ConnectorClaims}
    (valid : validateConnectorToken jwt token secret expected now = .ok claims) :
    jwt.decode secret token = some claims := by
  unfold validateConnectorToken at valid
  split at valid
  · cases valid
  · rename_i decoded
    split at valid
    · cases valid
    · split at valid
      · cases valid
      · cases valid
        exact decoded

/-- Whoever is admitted has shown a token with these claims. -/
theorem admitToken_runs {jwt : Jwt} {token : String}
    {result : Except WsHandlerError ConnectorClaims}
    (run : (admitToken state jwt token).run.Runs (Remembers connection) before result after) :
    Same before after ∧ ∀ claims, result = .ok claims →
      jwt.decode state.config.connectorTokenSecret token = some claims := by
  have serves : Serves state (connection + 1) (Modest connection) := serves_modest
  refine ⟨same_of_modest (serves.admitToken fun _ _ => trivial) run, ?_⟩
  obtain ⟨now, middle, -, rest⟩ := runs_lift_bind.mp run
  clear run
  split at rest
  · obtain ⟨rfl, -⟩ := rest
    exact nofun
  · rename_i claims valid
    split at rest
    · obtain ⟨rfl, -⟩ := rest
      intro other same
      cases same
      exact validate_decodes valid
    · obtain ⟨consumed, _, -, rest⟩ := runs_except_bind.mp rest
      cases consumed with
      | error error =>
          obtain ⟨rfl, -⟩ := rest
          exact nofun
      | ok consumed =>
          cases consumed with
          | false =>
              obtain ⟨rfl, -⟩ := rest
              exact nofun
          | true =>
              obtain ⟨rfl, -⟩ := rest
              intro other same
              cases same
              exact validate_decodes valid

/-- An answer changes no permission, and can only fail to be written. -/
theorem sendMessage_runs {message : ServerMessage} {result : Except WsHandlerError Unit}
    (run : (sendMessage connection message).run.Runs (Remembers connection) before result after) :
    Same before after ∧ ∀ error, result = .error error → error = .writeFailed := by
  refine ⟨same_of_modest (sendMessage_modest message) run, ?_⟩
  obtain ⟨sent, _, -, run⟩ := runs_lift_bind.mp run
  cases sent with
  | false =>
      obtain ⟨rfl, -⟩ := run
      intro error same
      cases same
      rfl
  | true =>
      obtain ⟨rfl, -⟩ := run
      exact nofun

/-- The context is changed as the handler says. -/
theorem setContext_runs {change : ConnectionContext → ConnectionContext}
    (run : (setContext connection change).Runs (Remembers connection) before () after) :
    after = change before := by
  obtain ⟨_, _, step, -, rfl⟩ := run
  exact (show after = _ from step).trans (if_pos rfl)

/-- The context holds what the token grants. -/
structure Grants (claims : ConnectorClaims) (context : ConnectionContext) : Prop where
  session : context.sessionId = some claims.sessionId
  intent : context.allowedIntent = some claims.intent
  room : context.allowedRoomId = claims.roomId

/-- What a token grants stays granted under the same context. -/
theorem Grants.of_same {claims : ConnectorClaims} (grants : Grants claims before)
    (same : Same before after) : Grants claims after :=
  ⟨same.sessionId.trans grants.session, same.allowedIntent.trans grants.intent,
    same.allowedRoomId.trans grants.room⟩

/-- An attach that has found its session. -/
theorem attachSession_runs {claims : ConnectorClaims} {session : SessionState}
    {result : Except WsHandlerError Unit}
    (run : (do
      redis (sessionSetOwner claims.sessionId state.config.publicNodeId)
      setContext connection fun context =>
        { context with
          sessionId := some claims.sessionId
          cachedSession := some session
          allowedIntent := some claims.intent
          allowedRoomId := claims.roomId }
      redis (incrementInstanceLoad state.config.publicNodeId)
      setContext connection fun context =>
        { context with
          instanceLoadRegistered := true
          leaseRenewer := some claims.sessionId }
      state.upsertSession claims.sessionId session
      sendMessage connection (.attached session.nickname claims.sessionId) : WsCall Unit).run.Runs
        (Remembers connection) before result after) :
    (result = .ok () → Grants claims after) ∧
      ∀ error, result = .error error → error = .writeFailed ∨ Same before after := by
  obtain ⟨owned, first, owns, run⟩ := runs_except_bind.mp run
  have sets : (redis (sessionSetOwner claims.sessionId state.config.publicNodeId)).run.Only
      (Modest connection) := Only.adapt (redisCommand_only trivial)
  have same := same_of_modest sets owns
  cases owned with
  | error error =>
      obtain ⟨rfl, rfl⟩ := run
      exact ⟨nofun, fun _ _ => .inr same⟩
  | ok _ =>
      obtain ⟨_, second, grant, run⟩ := runs_lift_bind.mp run
      obtain rfl := setContext_runs grant
      obtain ⟨counted, third, count, run⟩ := runs_except_bind.mp run
      obtain ⟨_, increment, rfl⟩ := runs_adapt.mp count
      obtain ⟨_, _, ⟨⟨_, answered⟩, rfl⟩, rfl, rfl⟩ := increment
      subst answered
      obtain ⟨_, fourth, renew, run⟩ := runs_lift_bind.mp run
      obtain rfl := setContext_runs renew
      obtain ⟨_, fifth, upsert, run⟩ := runs_lift_bind.mp run
      have upserts : (state.upsertSession claims.sessionId session).Only (Modest connection) :=
        issue_only trivial
      obtain ⟨sent, fails⟩ := sendMessage_runs run
      refine ⟨fun _ => ?_, fun error failed => .inl (fails error failed)⟩
      exact Grants.of_same ⟨rfl, rfl, rfl⟩ ((same_of_modest upserts upsert).trans sent)

/-- An attach that succeeds grants what its token says; one that fails grants nothing, unless
only its answer was not written. -/
theorem handleAttach_runs {jwt : Jwt} {token : String} {result : Except WsHandlerError Unit}
    (run : (handleAttach state connection jwt token).run.Runs (Remembers connection) before result
      after) :
    (result = .ok () → ∃ claims ∈ jwt.decode state.config.connectorTokenSecret token,
        Grants claims after) ∧
      ∀ error, result = .error error → error = .writeFailed ∨ Same before after := by
  have serves : Serves state (connection + 1) (Modest connection) := serves_modest
  obtain ⟨context, first, read, rest⟩ := runs_lift_bind.mp run
  clear run
  have reads : (getContext connection).Only (Modest connection) := issue_only trivial
  have same := same_of_modest reads read
  change (if context.sessionId.isSome = true then _ else _ : WsCall Unit).run.Runs _ _ _ _ at rest
  split at rest
  · obtain ⟨rfl, rfl⟩ := rest
    exact ⟨nofun, fun _ _ => .inr same⟩
  obtain ⟨up, second, available, rest⟩ := runs_except_bind.mp rest
  have same := same.trans (same_of_modest serves.requireRedis available)
  cases up with
  | error error =>
      obtain ⟨rfl, rfl⟩ := rest
      exact ⟨nofun, fun _ _ => .inr same⟩
  | ok _ =>
      obtain ⟨admitted, third, admission, rest⟩ := runs_except_bind.mp rest
      obtain ⟨kept, decoded⟩ := admitToken_runs admission
      have same := same.trans kept
      cases admitted with
      | error error =>
          obtain ⟨rfl, rfl⟩ := rest
          exact ⟨nofun, fun _ _ => .inr same⟩
      | ok claims =>
          obtain ⟨found, fourth, get, rest⟩ := runs_except_bind.mp rest
          have same := same.trans
            (same_of_modest (Only.adapt (serves.sessionGet claims.sessionId)) get)
          cases found with
          | error error =>
              obtain ⟨rfl, rfl⟩ := rest
              exact ⟨nofun, fun _ _ => .inr same⟩
          | ok found =>
              dsimp only at rest
              split at rest
              · obtain ⟨rfl, rfl⟩ := rest
                exact ⟨nofun, fun _ _ => .inr same⟩
              · obtain ⟨grants, fails⟩ := attachSession_runs rest
                refine ⟨fun done => ⟨claims, decoded claims rfl, grants done⟩,
                  fun error failed => ?_⟩
                exact (fails error failed).imp_right same.trans

/-- Giving up the session in the store touches no context but the count. -/
theorem logoutRedis_modest :
    (logoutRedis state connection sessionId nickname).run.Only (Modest connection) := by
  have serves : Serves state (connection + 1) (Modest connection) := serves_modest
  refine (Only.lift (State.isRedisAvailable_only trivial)).except_bind fun up => ?_
  cases up with
  | false => trivial
  | true =>
      refine (Only.lift (issue_only trivial)).except_bind fun context => ?_
      have uncounts : (uncountConnection state connection context).run.Only
        (Modest connection) := by
        unfold uncountConnection
        split
        · have counts : Counts state (connection + 1) (Modest connection) :=
            ⟨fun _ own => absurd own (Nat.succ_ne_self connection), fun _ => trivial⟩
          refine (Only.adapt (serves.decrementInstanceLoad counts)).except_bind fun _ => ?_
          exact Only.lift (setContext_modest fun _ => ⟨rfl, rfl, rfl⟩)
        · trivial
      refine uncounts.except_bind fun _ => ?_
      refine (Only.adapt (redisCommand_drop_only trivial)).except_bind fun _ => ?_
      exact Only.adapt (redisCommand_drop_only trivial)

/-- A logout that fails before its answer has kept the session and the permission. -/
theorem handleLogout_runs {participants : Option (List String)}
    {result : Except WsHandlerError Unit} {error : WsHandlerError}
    (run : (handleLogout state connection sessionId participants).run.Runs (Remembers connection)
      before result after) (failed : result = .error error) :
    error = .writeFailed ∨ Keeps before after := by
  subst failed
  obtain ⟨checked, first, check, run⟩ := runs_except_bind.mp run
  cases checked with
  | error other =>
      obtain ⟨-, rfl⟩ := run
      exact .inr (keeps_of_check check)
  | ok session =>
      obtain ⟨left, second, leave, run⟩ := runs_except_bind.mp run
      have leaves (roomId : Option RoomId) : (leaveOnLogout state connection sessionId
          session.nickname participants roomId).run.Only (Modest connection) := by
        cases roomId with
        | none => trivial
        | some roomId => exact leaveRoomOf_modest participants _
      have kept : Keeps before first := by
        rcases checkSession_runs check with ⟨_, -, known⟩ | ⟨⟨_, impossible⟩, -⟩
        · exact known.toKeeps
        · cases impossible
      have kept := kept.trans (same_of_modest (leaves _) leave).keeps
      cases left with
      | error other =>
          obtain ⟨-, rfl⟩ := run
          exact .inr kept
      | ok _ =>
          obtain ⟨ended, third, ends, run⟩ := runs_except_bind.mp run
          have kept := kept.trans (same_of_modest logoutRedis_modest ends).keeps
          cases ended with
          | error other =>
              obtain ⟨-, rfl⟩ := run
              exact .inr kept
          | ok _ =>
              obtain ⟨_, fourth, -, run⟩ := runs_lift_bind.mp run
              obtain ⟨_, fifth, -, run⟩ := runs_lift_bind.mp run
              exact .inl ((sendMessage_runs run).2 error rfl)

/-! ## Histories -/

/-- What is covered by fewer tokens is covered by more. -/
theorem Covered.mono {jwt : Jwt} {secret : String} {weak strong : ConnectorClaims → Prop}
    (implies : ∀ claims, strong claims → weak claims) {history : List Entry}
    (covered : Covered jwt secret strong history) : Covered jwt secret weak history := by
  induction history with
  | nil => exact covered
  | cons entry earlier ih =>
      simp only [Covered] at covered ⊢
      split at covered
      · exact covered.imp (fun ⟨claims, decoded, fits⟩ => ⟨claims, decoded, implies claims fits⟩) ih
      · exact covered.elim
      · exact ih covered

/-- Where the permission in the context comes from. -/
def Justified (jwt : Jwt) (secret : String) (history : List Entry) (context : ConnectionContext) :
    Prop :=
  context.allowedIntent = none ∨ LoggedOut history ∨
    ∃ claims, Covered jwt secret (· = claims) history ∧ Grants claims context

/-- An entry that keeps the context and is neither an attach nor a logout. -/
theorem Justified.keep {jwt : Jwt} {secret : String} {history : List Entry} {entry : Entry}
    (justified : Justified jwt secret history before) (other : event entry = .other)
    (keeps : Keeps before after) : Justified jwt secret (entry :: history) after := by
  unfold Justified
  simp only [LoggedOut, Covered, other]
  refine justified.imp keeps.allowedIntent.trans (Or.imp_right ?_)
  intro ⟨claims, covered, grants⟩
  exact ⟨claims, covered, keeps.session _ grants.session, keeps.allowedIntent.trans grants.intent,
    keeps.allowedRoomId.trans grants.room⟩

/-- A request to enter a room that succeeds is covered, unless the client has logged out. -/
theorem Justified.covers {jwt : Jwt} {secret intent : String} {history : List Entry}
    (justified : Justified jwt secret history before) (attached : ¬ LoggedOut history)
    (permits : Permits sessionId intent before) :
    Covered jwt secret (fun claims => claims.sessionId = sessionId ∧ claims.intent = intent ∧
      claims.roomId = before.allowedRoomId) history := by
  rcases justified with unset | out | ⟨claims, covered, grants⟩
  · rw [permits.intended] at unset
    cases unset
  · exact absurd out attached
  · refine covered.mono fun other same => ?_
    subst same
    refine ⟨permits.free _ grants.session, ?_, grants.room.symm⟩
    exact Option.some.inj (grants.intent.symm.trans permits.intended)

section Turn

variable {jwt : Jwt} {history : List Entry} {message : ClientMessage}
  {result : Except WsHandlerError Unit}

/-- A message brings a new permission, or ends the session, or keeps both. -/
theorem turn_cases
    (run : (handleClientMessage state connection jwt message).run.Runs (Remembers connection) before
      result after) (goes : result ≠ .error .writeFailed) :
    (∃ token, event (message, result) = .attached token ∧
      ∃ claims ∈ jwt.decode state.config.connectorTokenSecret token, Grants claims after) ∨
    event (message, result) = .loggedOut ∨
    event (message, result) = .other ∧ Keeps before after := by
  cases message with
  | attach token =>
      obtain ⟨grants, fails⟩ := handleAttach_runs run
      cases result with
      | ok _ => exact .inl ⟨token, rfl, grants rfl⟩
      | error error =>
          refine .inr (.inr ⟨rfl, ((fails error rfl).resolve_left fun same => ?_).keeps⟩)
          exact goes (congrArg Except.error same)
  | logout sessionId participants =>
      cases result with
      | ok _ => exact .inr (.inl rfl)
      | error error =>
          refine .inr (.inr ⟨rfl, (handleLogout_runs run rfl).resolve_left fun same => ?_⟩)
          exact goes (congrArg Except.error same)
  | sdp => exact .inr (.inr ⟨rfl, handleSdp_runs run⟩)
  | candidate => exact .inr (.inr ⟨rfl, handleCandidate_runs run⟩)
  | create => exact .inr (.inr ⟨rfl, (create_runs run).1⟩)
  | join => exact .inr (.inr ⟨rfl, (join_runs run).1⟩)
  | leave => exact .inr (.inr ⟨rfl, handleLeave_runs run⟩)

/-- After a message the permission has the same origin as before, or a new one. -/
theorem Justified.turn
    (justified : Justified jwt state.config.connectorTokenSecret history before)
    (run : (handleClientMessage state connection jwt message).run.Runs (Remembers connection) before
      result after) (goes : result ≠ .error .writeFailed) :
    Justified jwt state.config.connectorTokenSecret ((message, result) :: history) after := by
  rcases turn_cases run goes with ⟨token, attaches, claims, decoded, grants⟩ | ends | ⟨other, keeps⟩
  · refine .inr (.inr ⟨claims, ?_, grants⟩)
    simp only [Covered, attaches]
    exact .inl ⟨claims, decoded, rfl⟩
  · refine .inr (.inl ?_)
    simp only [LoggedOut, ends]
  · exact justified.keep other keeps

/-- A message that enters a room is covered, unless the client has logged out. -/
theorem Justified.entry
    (justified : Justified jwt state.config.connectorTokenSecret history before)
    (run : (handleClientMessage state connection jwt message).run.Runs (Remembers connection) before
      result after) (tidy : Enters message → ¬ LoggedOut history) :
    EntryCovered jwt state.config.connectorTokenSecret history (message, result) := by
  cases result with
  | error error => cases message <;> trivial
  | ok _ =>
      cases message with
      | create sessionId =>
          have permits := (create_runs run).2 rfl
          refine (justified.covers (tidy trivial) permits).mono fun claims fits => ?_
          exact ⟨fits.1, fits.2.1⟩
      | join sessionId roomId =>
          obtain ⟨permits, here⟩ := (join_runs run).2 rfl
          refine (justified.covers (tidy trivial) permits).mono fun claims fits => ?_
          exact ⟨fits.1, fits.2.1, fits.2.2.trans here⟩
      | _ => trivial

/-- The permission of a connection comes from a token, as long as it takes messages. -/
theorem justified_of_conversation {world : World}
    (conversation : Conversation state connection jwt MayFail history world) (goes : Open history) :
    Justified jwt state.config.connectorTokenSecret history (contextOf connection world) := by
  induction conversation with
  | start fresh =>
      rw [fresh]
      exact .inl rfl
  | turn _ opened run ih =>
      exact (ih opened).turn (remembers_runs run) goes

/-- **Every entry of a room is covered by a token for its session**, if after a logout the
client enters no room before it has attached again, and no attach fails to be counted. -/
theorem covered_of_tidy {world : World}
    (conversation : Conversation state connection jwt MayFail history world) (tidy : Tidy history) :
    AllCovered jwt state.config.connectorTokenSecret history := by
  induction conversation with
  | start => trivial
  | turn earlier opened run ih =>
      refine ⟨ih tidy.1, ?_⟩
      exact (justified_of_conversation earlier opened).entry (remembers_runs run) tidy.2

end Turn

/-! ## A logout and another session -/

/-- The claims of a token that lets the first session create a room. -/
def firstClaims : ConnectorClaims :=
  { jti := "token-1", sessionId := "session-1", nickname := "alice"
    signalingInstanceId := sampleNode.config.publicNodeId, intent := "create", roomId := none
    iat := 0, exp := 120 }

/-- That token. -/
def firstToken : String :=
  openJwt.encode sampleNode.config.connectorTokenSecret firstClaims

/-- Two sessions and a ready SFU; nobody is connected. -/
def twoSessions : World :=
  { World.fresh with
    issued := {"session-1", "session-2", "token-1"}
    redis := { Redis.empty with
      instances := (∅ : Map InstanceId SfuInstance).insert "sfu-1" sampleSfu
      sessions := ((∅ : Map SessionId SessionHash).insert "session-1"
        ⟨Hash.set none "nickname" "alice", some 3600000⟩).insert "session-2"
          ⟨Hash.set none "nickname" "bob", some 3600000⟩ } }

/-- Handle some messages one after the other. -/
def handleAll (state : State) (connection : ConnectionId) (jwt : Jwt) :
    List ClientMessage → Call (List Entry)
  | [] => return []
  | message :: messages => do
      let result ← (handleClientMessage state connection jwt message).run
      let later ← handleAll state connection jwt messages
      return (message, result) :: later

/-- A run of some messages that all succeed goes on with a conversation. -/
theorem conversation_of_runs {jwt : Jwt} {lets : Op → Prop} {messages : List ClientMessage}
    {history entries : List Entry} {first last : World}
    (conversation : Conversation state connection jwt lets history first) (opened : Open history)
    (run : (handleAll state connection jwt messages).Runs World.exec first entries last)
    (succeed : ∀ entry ∈ entries, entry.2 = .ok ()) :
    Conversation state connection jwt lets (entries.reverse ++ history) last := by
  induction messages generalizing history first entries with
  | nil =>
      obtain ⟨rfl, rfl⟩ := run
      exact conversation
  | cons message messages ih =>
      obtain ⟨result, middle, handle, rest⟩ := runs_bind.mp run
      obtain ⟨later, _, rest, rfl, rfl⟩ := runs_bind.mp rest
      have done : result = .ok () := succeed _ List.mem_cons_self
      have step (op : Op) (before : World) (reply : op.Reply) (after : World)
          (taken : World.exec op before reply after) :
          Turn connection lets op (id before) reply (id after) := ⟨before, rfl, .inl taken⟩
      have turns : (handleClientMessage state connection jwt message).run.Runs
          (Turn connection lets) first result middle := Runs.project step handle
      rw [List.reverse_cons, List.append_assoc]
      refine ih (conversation.turn opened turns) ?_ rest fun entry member =>
        succeed entry (List.mem_cons_of_mem _ member)
      rw [done]
      exact nofun

/-- A create from its lock on, for a session with this nickname. -/
def creating (nickname : Nickname) : List Hint :=
  { names := ["lock-1"] } :: noHints 7 ++ { names := ["room-1"] } :: noHints 1 ++
    { names := ["sfu-1"] } :: noHints 3 ++ { names := [nickname] } :: noHints 7

/-- The conversation begins. -/
theorem start_twoSessions {lets : Op → Prop} :
    Conversation sampleNode 0 openJwt lets [] twoSessions := .start rfl

/-- A create right after the attach is covered. -/
theorem covered_create : ∃ world,
    Conversation sampleNode 0 openJwt MayFail
      [(.create "session-1", .ok ()), (.attach firstToken, .ok ())] world ∧
    Tidy [(.create "session-1", .ok ()), (.attach firstToken, .ok ())] ∧
    AllCovered openJwt sampleNode.config.connectorTokenSecret
      [(.create "session-1", .ok ()), (.attach firstToken, .ok ())] := by
  obtain ⟨entries, world, run, passed⟩ := World.exists_runs
    (handleAll sampleNode 0 openJwt [.attach firstToken, .create "session-1"]) twoSessions
    (noHints 12 ++ creating "alice")
    (fun entries _ => decide
      (entries = [(.attach firstToken, .ok ()), (.create "session-1", .ok ())]))
    (by decide +kernel)
  obtain rfl := of_decide_eq_true passed
  have conversation : Conversation sampleNode 0 openJwt MayFail
      [(.create "session-1", .ok ()), (.attach firstToken, .ok ())] world :=
    conversation_of_runs start_twoSessions trivial run (by simp)
  have tidy : Tidy [(.create "session-1", .ok ()), (.attach firstToken, .ok ())] :=
    ⟨⟨trivial, nofun⟩, fun _ out => out⟩
  exact ⟨world, conversation, tidy, covered_of_tidy conversation tidy⟩

/-- **A room created without a token**: the connection attaches for one session, logs out,
and creates a room for another session that no token was presented for. -/
theorem uncovered_after_logout : ∃ history world,
    Conversation sampleNode 0 openJwt MayFail history world ∧
    ¬ AllCovered openJwt sampleNode.config.connectorTokenSecret history := by
  obtain ⟨entries, world, run, passed⟩ := World.exists_runs
    (handleAll sampleNode 0 openJwt
      [.attach firstToken, .logout "session-1" none, .create "session-2"]) twoSessions
    (noHints 27 ++ creating "bob")
    (fun entries _ => decide (entries =
      [(.attach firstToken, .ok ()), (.logout "session-1" none, .ok ()),
        (.create "session-2", .ok ())]))
    (by decide +kernel)
  obtain rfl := of_decide_eq_true passed
  refine ⟨_, world, conversation_of_runs start_twoSessions trivial run (by simp), ?_⟩
  intro covered
  exact covered.2

end Callifornia.Permission
