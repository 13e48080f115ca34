import Callifornia.Concurrency.Turns
import Callifornia.Connector.Outcomes
import Callifornia.Signaling.Outcomes

/-! # The connector and the signaling nodes at work

Users authenticate and log out at the connector; connections send requests to their
signaling nodes and end. Each of these actions runs alone.
-/

namespace Callifornia

open Concurrency Concurrency.Program Signaling

/-- The task of a connection ends, and its context with it. -/
def Signaling.endConnection (state : State) (connection : ConnectionId) : Call Unit := do
  cleanupConnection state connection
  setContext connection fun _ => {}

inductive Action
  | auth (nickname : String)
  | logout (sessionId : SessionId)
  | message (connection : ConnectionId) (request : ClientMessage)
  | disconnect (connection : ConnectionId)

/-- What the services run with. -/
structure Setup where
  config : Connector.Config
  jwt : Jwt
  /-- The node of each connection. -/
  home : ConnectionId → State

def Action.program (setup : Setup) : Action → Call Unit
  | .auth nickname => do let _ ← (Connector.auth setup.config nickname).run
  | .logout sessionId => do let _ ← (Connector.logout sessionId).run
  | .message connection request => do
      let _ ← handleText (setup.home connection) connection setup.jwt request
  | .disconnect connection => endConnection (setup.home connection) connection

/-- Between two actions clients receive their messages, channels of connections that have
no session open and close, and identifiers are drawn elsewhere. -/
structure Roster.Idles (before after : Roster) : Prop where
  sessions : after.sessions = before.sessions
  reserved : after.reserved = before.reserved
  bindings : after.bindings = before.bindings
  loads : after.loads = before.loads
  members : after.members = before.members
  nodes : after.nodes = before.nodes
  sfuPeers : after.sfuPeers = before.sfuPeers
  attached : after.attached = before.attached
  issued : before.issued ⊆ after.issued
  listening : ∀ connection, before.attached connection ≠ none →
    after.listening connection = before.listening connection

/-- What an action has done when it ends. -/
def Effect (setup : Setup) (accepting : Accepting) (regular : Prop) :
    Action → Roster → Roster → Prop
  | .auth _, before, after => Connector.AuthOutcome before after
  | .logout sessionId, before, after => Connector.LogoutOutcome sessionId before after
  | .message connection request, before, after => ∃ result,
      Outcome (setup.home connection) connection accepting regular before request result after
  | .disconnect connection, before, after => ∃ cleaned,
      CleanupOutcome (setup.home connection) connection accepting before cleaned ∧
        after = cleaned.attach connection none

section

variable {exec : (op : Op) → World → op.Reply → World → Prop} {world : World}
  (sound : ∀ op before reply after, exec op before reply after → World.exec op before reply after)
  {accepting : Accepting} {regular : Prop}
  (accepts : ∀ sender message before reply after,
    exec (.trySend sender message) before reply after →
      accepting before.roster.listening sender → reply = true)
  (records : regular →
    ∀ roomId ownerHost ownerPort ownerId clock staleAfter before reply after,
      exec (.redis (.assignRoomToSfu roomId ownerHost ownerPort ownerId clock staleAfter)) before
        reply after →
      ∀ instanceId record, before.redis.instances.lookup instanceId = some record →
        record.grpcAddr ≠ "" ∧ record.instanceId ≠ "__ROOM_EXISTS__")

include sound accepts

theorem endConnection_ensures (state : State) (connection : ConnectionId) :
    (endConnection state connection).Ensures exec world fun _ after =>
      ∃ cleaned, CleanupOutcome state connection accepting world.roster cleaned ∧
        after.roster = cleaned.attach connection none := by
  apply (cleanupConnection_ensures sound accepts state connection).bind
  intro _ cleaned outcome
  apply (setContext_leaves sound fun _ => by rfl).mono
  rintro _ after ⟨-, left⟩
  exact ⟨cleaned.roster, outcome, left⟩

include records

/-- What an action does to the roster. -/
theorem Action.ensures (setup : Setup) (action : Action) :
    (action.program setup).Ensures exec world fun _ after =>
      Effect setup accepting regular action world.roster after.roster := by
  cases action with
  | auth nickname =>
      apply (Connector.auth_ensures sound setup.config nickname).bind
      intro _ after outcome
      exact ensures_ret.mpr outcome
  | logout sessionId =>
      apply (Connector.logout_ensures sound sessionId).bind
      intro _ after outcome
      exact ensures_ret.mpr outcome
  | message connection request =>
      apply (handleText_ensures sound accepts records (setup.home connection) connection setup.jwt
        request).bind
      rintro _ after ⟨result, outcome, -⟩
      exact ensures_ret.mpr ⟨result, outcome⟩
  | disconnect connection =>
      exact endConnection_ensures sound accepts (setup.home connection) connection

end

/-- What an action does where channels may refuse and records may be anything. -/
theorem Action.ensures_exec {world : World} (setup : Setup) (action : Action) :
    (action.program setup).Ensures World.exec world fun _ after =>
      Effect setup (fun _ _ => False) False action world.roster after.roster :=
  Action.ensures (fun _ _ _ _ step => step) (fun _ _ _ _ _ _ => False.elim) False.elim setup action

end Callifornia
