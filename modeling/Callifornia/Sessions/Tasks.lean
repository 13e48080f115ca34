import Callifornia.Connector.Session
import Callifornia.Signaling.Handlers
import Callifornia.Supervisor.Footprint

/-! # The tasks that use sessions

The requests of the connector, the messages and the end of a connection, the closing of
rooms, the renewal of a lease and the janitor. Apart from the beginning and the end of a
session they consist of ordinary steps.
-/

namespace Callifornia

open Concurrency Concurrency.Program Store Signaling

/-- A request, or one iteration of a background task. -/
inductive SessionTask
  | auth (config : Connector.Config) (nickname : String)
  | logout (sessionId : SessionId)
  | sessionRenew (config : Connector.Config) (sessionId : SessionId)
  | text (state : State) (connection : ConnectionId) (jwt : Jwt) (message : ClientMessage)
  | disconnect (state : State) (connection : ConnectionId)
  | closeRooms (state : State) (sfuAddr : Address) (reason : String)
  | renewLease (sessionId : SessionId) (ttlSecs : ℕ)
  | janitor (config : Supervisor.Config)

def SessionTask.program : SessionTask → Call Unit
  | .auth config nickname => Functor.mapConst () (Connector.auth config nickname).run
  | .logout sessionId => Functor.mapConst () (Connector.logout sessionId).run
  | .sessionRenew config sessionId =>
      Functor.mapConst () (Connector.sessionRenew config sessionId).run
  | .text state connection jwt message =>
      Functor.mapConst () (handleText state connection jwt message)
  | .disconnect state connection => cleanupConnection state connection
  | .closeRooms state sfuAddr reason => state.closeRoomsDueToSfuAddr sfuAddr reason
  | .renewLease sessionId ttlSecs => Functor.mapConst () (renewSessionTtl sessionId ttlSecs).run
  | .janitor config => Supervisor.logged (Supervisor.runJanitorIteration config)

/-- The step neither names a session, nor deletes one, nor touches a nickname. -/
def Op.Ordinary : Op → Prop
  | .redis (.hset (.session _) field _) => field ≠ "nickname"
  | .redis (.del (.session _)) | .redis (.setNx (.nick _) _ _)
  | .redis (.compareAndDel (.nick _) _) => False
  | _ => True

variable {allowed : Op → Prop} {state : State} {connection : ConnectionId}

section

variable (ordinary : ∀ op : Op, op.Ordinary → allowed op)

include ordinary

theorem serves_of_ordinary : Serves state connection allowed where
  reads command reads := ordinary _ (by cases command <;> first | exact trivial | exact reads.elim)
  clock := ordinary _ trivial
  fuel := ordinary _ trivial
  recalls := ordinary _ trivial
  remembers _ _ := ordinary _ trivial
  answers _ := ordinary _ trivial
  sends _ _ := ordinary _ trivial
  peers _ _ := ordinary _ trivial
  registers _ _ _ := ordinary _ trivial
  sessions _ := ordinary _ trivial
  creates _ _ _ := ordinary _ trivial
  deletes _ _ _ _ := ordinary _ trivial
  removes _ _ := ordinary _ trivial
  clears _ := ordinary _ trivial
  unbinds _ := ordinary _ trivial
  scores _ _ := ordinary _ trivial
  records _ _ := ordinary _ trivial

theorem counts_of_ordinary : Counts state connection allowed :=
  ⟨fun _ => ordinary _ trivial, fun _ => ordinary _ trivial⟩

theorem sets_of_ordinary (sessionId : SessionId) (value : String) :
    allowed (.redis (.hset (.session sessionId) "room_id" value)) :=
  ordinary _ (show "room_id" ≠ "nickname" by decide)

/-- A handler releases the nickname and deletes the session only for a logout. -/
theorem handleClientMessage_only (jwt : Jwt) (message : ClientMessage)
    (ends : ∀ sessionId participants, message = .logout sessionId participants →
      (∀ nickname, allowed (.redis (.compareAndDel (.nick nickname) sessionId))) ∧
        allowed (.redis (.del (.session sessionId)))) :
    (handleClientMessage state connection jwt message).run.Only allowed := by
  have serves : Serves state connection allowed := serves_of_ordinary ordinary
  have sets := sets_of_ordinary ordinary
  cases message with
  | attach token =>
      refine serves.handleAttach (fun _ _ => ordinary _ trivial) (fun sessionId => ?_)
        (ordinary _ trivial) fun _ => ordinary _ trivial
      exact ordinary _ (show "signaling_owner_id" ≠ "nickname" by decide)
  | logout sessionId participants =>
      obtain ⟨releases, drops⟩ := ends sessionId participants rfl
      exact serves.handleLogout (counts_of_ordinary ordinary) (sets sessionId "") releases drops
  | sdp => exact serves.handleSdp fun _ _ _ => ordinary _ trivial
  | candidate => exact serves.handleCandidate fun _ _ _ => ordinary _ trivial
  | create sessionId =>
      refine serves.withSessionLock (ordinary _ trivial) (fun _ _ => ordinary _ trivial)
        (fun _ => ordinary _ trivial) ?_
      exact serves.handleCreateLocked (ordinary _ trivial) (fun _ _ => ordinary _ trivial)
        (fun _ _ => ordinary _ trivial) (sets sessionId)
  | join sessionId roomId =>
      refine serves.withSessionLock (ordinary _ trivial) (fun _ _ => ordinary _ trivial)
        (fun _ => ordinary _ trivial) ?_
      exact serves.handleJoinLocked (fun _ => ordinary _ trivial) (sets sessionId roomId)
  | leave sessionId => exact serves.handleLeave (sets sessionId "")

/-- The report of an error to the client. -/
theorem reportError_only (result : Except WsHandlerError Unit) :
    (match result with
      | .ok () => return true
      | .error .writeFailed => return false
      | .error error => issue (.sendMessage connection
          (.error (mapError error).1 (mapError error).2)) : Call Bool).Only allowed := by
  split
  · trivial
  · trivial
  · exact issue_only (ordinary _ trivial)

theorem handleText_only (jwt : Jwt) (message : ClientMessage)
    (ends : ∀ sessionId participants, message = .logout sessionId participants →
      (∀ nickname, allowed (.redis (.compareAndDel (.nick nickname) sessionId))) ∧
        allowed (.redis (.del (.session sessionId)))) :
    (handleText state connection jwt message).Only allowed :=
  Only.bind (handleClientMessage_only ordinary jwt message ends) (reportError_only ordinary)

theorem cleanupConnection_only : (cleanupConnection state connection).Only allowed :=
  (serves_of_ordinary ordinary).cleanupConnection (counts_of_ordinary ordinary) fun sessionId =>
    sets_of_ordinary ordinary sessionId ""

theorem closeRoomsDueToSfuAddr_only (sfuAddr : Address) (reason : String) :
    (state.closeRoomsDueToSfuAddr sfuAddr reason).Only allowed := by
  have serves : Serves state 0 allowed := serves_of_ordinary ordinary
  refine State.closeRoomsDueToSfuAddr_only (serves.peers _ trivial)
    (fun _ => serves.reads (.hgetall _) trivial) fun roomId participants => ?_
  exact State.closeRoom_only (serves.peers _ trivial) (fun _ => serves.sends _ _)
    (fun _ => serves.peers _ trivial) (serves.sessions _) (serves.reads .ping trivial)
    (serves.closeRoomBinding _) (serves.clears _)
    fun sessionId => sets_of_ordinary ordinary sessionId ""

theorem sessionRenew_only (config : Connector.Config) (sessionId : SessionId) :
    (Connector.sessionRenew config sessionId).run.Only allowed := by
  have get : (Connector.sessionGet sessionId).run.Only allowed :=
    (redisCommand_only (ordinary (.redis (.hget _ _)) trivial)).except_bind fun _ => trivial
  refine (Only.adapt get).except_bind fun found => ?_
  cases found with
  | none => trivial
  | some session =>
      refine Only.except_bind (Only.adapt
        (redisCommand_only (ordinary (.redis (.get _)) trivial))) fun owner => ?_
      change (if owner ≠ some sessionId then _ else _ : Connector.HttpCall Unit).run.Only allowed
      split
      · trivial
      · refine Only.except_bind (Only.adapt
          (redisCommand_only (ordinary (.redis (.expire _ _)) trivial))) fun renewed => ?_
        cases renewed <;> trivial

theorem renewSessionTtl_only (sessionId : SessionId) (ttlSecs : ℕ) :
    (renewSessionTtl sessionId ttlSecs).run.Only allowed :=
  redisCommand_drop_only (ordinary _ trivial)

/-- The janitor deletes sessions and takes no other step that is not ordinary. -/
theorem runJanitorIteration_only (config : Supervisor.Config)
    (drops : ∀ sessionId, allowed (.redis (.del (.session sessionId)))) :
    (Supervisor.runJanitorIteration config).run.Only allowed := by
  have slot (instanceId : InstanceId) :
      (Supervisor.decrementSfuRoomLoad instanceId).run.Only allowed :=
    Supervisor.decrementSfuRoomLoad_only (ordinary _ trivial) (fun _ => ordinary _ trivial)
      (ordinary _ trivial) (ordinary _ trivial) fun _ _ => ordinary _ trivial
  have scan (pattern : ScanPattern) :
      (Supervisor.scanFrom pattern config.loopBound none []).run.Only allowed :=
    Supervisor.scanFrom_only (fun _ => ordinary _ trivial) (ordinary _ trivial)
  have clock : allowed .unixNow := ordinary _ trivial
  refine Only.except_bind ((Only.lift (issue_only clock)).except_bind fun _ =>
    redisCommand_only (ordinary _ trivial)) fun alive => ?_
  refine (Only.lift (issue_only clock)).except_bind fun now => ?_
  refine (scan .bindings).except_bind fun bindingIds => ?_
  refine (Only.except_forM fun roomId _ => ?_).except_bind fun _ => ?_
  · exact Supervisor.reclaimIfStale_only (ordinary _ trivial) slot (ordinary _ trivial)
      (ordinary _ trivial)
  refine (scan .members).except_bind fun rooms => ?_
  refine (Only.except_forM fun roomId _ => ?_).except_bind fun _ => ?_
  · exact Supervisor.deleteIfOrphan_only (ordinary _ trivial)
  refine Only.except_bind ((redisCommand_only
    (ordinary (.redis (.zrangeWithScores _)) trivial)).except_bind fun _ => trivial)
      fun loadMembers => ?_
  refine (Only.except_forM fun nodeId _ => ?_).except_bind fun _ => ?_
  · exact Supervisor.removeLoadIfStale_only (ordinary _ trivial)
  refine (scan .sessions).except_bind fun sessionIds => ?_
  refine (Only.except_forM fun sessionId _ => ?_).except_bind fun _ => ?_
  · exact Supervisor.deleteSessionIfStale_only (ordinary _ trivial) (drops sessionId)
  exact Only.lift (Supervisor.logged_only (redisCommand_only (ordinary _ trivial)))

end

end Callifornia
