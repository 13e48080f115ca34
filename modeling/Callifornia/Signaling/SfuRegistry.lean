import Callifornia.Concurrency.Replay
import Callifornia.World

/-! # The SFU registry of a signaling node

Every call to an SFU goes through the registry. It keeps the channels to the SFUs, the
addresses with an event listener, and one mutex for each peer, held while an SDP of that
peer is being negotiated. Each lock acquisition is a step of its own.
-/

namespace Callifornia.Signaling.SfuRegistry

open Concurrency Concurrency.System FiniteMap Store

abbrev PeerKey := String

abbrev MutexId := ℕ

abbrev CallId := ℕ

def sdpPeerKey (roomId : RoomId) (nickname : Nickname) : PeerKey := roomId ++ "\x1f" ++ nickname

inductive SdpType
  | unspecified
  | offer
  | answer
  deriving DecidableEq

/-- The number of the type on the wire. -/
def SdpType.number : SdpType → ℤ
  | .unspecified => 0
  | .offer => 1
  | .answer => 2

def parseSdpType (value : String) : SdpType :=
  if value = "offer" then .offer else if value = "answer" then .answer else .unspecified

/-- The type that a response gives as a number. -/
def formatSdpType (value : ℤ) : String := if value = 1 then "offer" else "answer"

inductive Request
  | createPeer (roomId : RoomId) (participantId : Nickname) (signalingId : NodeId)
  | deletePeer (roomId : RoomId) (participantId : Nickname) (reason : String)
  | handleSdp (roomId : RoomId) (participantId : Nickname) (sdp : String) (sdpType : SdpType)
  | addIceCandidate (roomId : RoomId) (participantId : Nickname) (candidate sdpMid : String)
  deriving DecidableEq

/-- The peer whose SDP is to be handled. -/
def Request.negotiates : Request → Option (RoomId × Nickname)
  | .handleSdp roomId participantId .. => some (roomId, participantId)
  | _ => none

/-- What the SFU responds; the texts of an SDP response are empty in the others. -/
structure Response where
  success : Bool
  errorMessage : Option String := none
  sdp : String := ""
  sdpType : ℤ := 0
  deriving DecidableEq

inductive StatusCode
  | unavailable
  | cancelled
  | deadlineExceeded
  | other
  deriving DecidableEq

/-- A call ends without a response. -/
inductive Failure
  | status (code : StatusCode)
  | timeout
  deriving DecidableEq

/-- A request with its number. -/
structure Rpc where
  id : CallId
  request : Request
  deriving DecidableEq

/-- The registry, its mutexes and listener tasks, and its calls at the SFUs. -/
structure Node where
  signalingId : NodeId
  /-- The SFUs with a channel. -/
  clients : Finset Address
  listeners : Finset Address
  sdpPeerLocks : Map PeerKey MutexId
  nextMutex : MutexId
  held : Finset MutexId
  /-- The SFUs of the running `run_event_listener` tasks. -/
  running : Multiset Address
  nextCall : CallId
  /-- The requests on their way to an SFU. -/
  inFlight : Finset Rpc
  /-- The requests an SFU is executing. -/
  executing : Finset Rpc

/-- A node that has just started. -/
def Node.fresh (signalingId : NodeId) : Node :=
  { signalingId := signalingId, clients := ∅, listeners := ∅, sdpPeerLocks := ∅, nextMutex := 0,
    held := ∅, running := 0, nextCall := 0, inFlight := ∅, executing := ∅ }

/-- The atomic steps of the registry. -/
inductive Op
  | hasClient (sfuAddr : Address)
  | connect (sfuAddr : Address)
  | insertClient (sfuAddr : Address)
  | removeClient (sfuAddr : Address)
  | clearClients
  | hasListener (sfuAddr : Address)
  | insertListener (sfuAddr : Address)
  | spawnListener (sfuAddr : Address)
  | clearListeners
  /-- The mutex of a peer, a new one if the peer has none. -/
  | peerLock (key : PeerKey)
  | removePeerLock (key : PeerKey)
  | clearPeerLocks
  | lock (mutex : MutexId)
  | unlock (mutex : MutexId)
  | send (request : Request)
  | receive (call : CallId)

@[reducible] def Op.Reply : Op → Type
  | .hasClient _ | .connect _ | .hasListener _ => Bool
  | .peerLock _ => MutexId
  | .send _ => CallId
  | .receive _ => Except Failure Response
  | _ => Unit

/-- The mutex of a peer, and the node that has it. -/
def Node.peerLock (node : Node) (key : PeerKey) : MutexId × Node :=
  match node.sdpPeerLocks.lookup key with
  | some mutex => (mutex, node)
  | none => (node.nextMutex,
      { node with
        sdpPeerLocks := node.sdpPeerLocks.insert key node.nextMutex
        nextMutex := node.nextMutex + 1 })

/-- The node that has sent a request. -/
def Node.send (node : Node) (request : Request) : Node :=
  { node with
    inFlight := insert ⟨node.nextCall, request⟩ node.inFlight
    nextCall := node.nextCall + 1 }

/-- The calls that have not come to their end at an SFU. -/
def Node.calls (node : Node) : Finset Rpc := node.inFlight ∪ node.executing

/-- The effect of a step. A response comes only when the SFU is through with the request. -/
def exec : (op : Op) → Node → op.Reply → Node → Prop
  | .hasClient sfuAddr, node, reply, after =>
      reply = decide (sfuAddr ∈ node.clients) ∧ after = node
  | .connect _, node, _, after => after = node
  | .insertClient sfuAddr, node, _, after =>
      after = { node with clients := insert sfuAddr node.clients }
  | .removeClient sfuAddr, node, _, after =>
      after = { node with clients := node.clients.erase sfuAddr }
  | .clearClients, node, _, after => after = { node with clients := ∅ }
  | .hasListener sfuAddr, node, reply, after =>
      reply = decide (sfuAddr ∈ node.listeners) ∧ after = node
  | .insertListener sfuAddr, node, _, after =>
      after = { node with listeners := insert sfuAddr node.listeners }
  | .spawnListener sfuAddr, node, _, after =>
      after = { node with running := sfuAddr ::ₘ node.running }
  | .clearListeners, node, _, after => after = { node with listeners := ∅ }
  | .peerLock key, node, reply, after => (reply, after) = node.peerLock key
  | .removePeerLock key, node, _, after =>
      after = { node with sdpPeerLocks := node.sdpPeerLocks.erase key }
  | .clearPeerLocks, node, _, after => after = { node with sdpPeerLocks := ∅ }
  | .lock mutex, node, _, after =>
      mutex ∉ node.held ∧ after = { node with held := insert mutex node.held }
  | .unlock mutex, node, _, after => after = { node with held := node.held.erase mutex }
  | .send request, node, reply, after => reply = node.nextCall ∧ after = node.send request
  | .receive call, node, reply, after =>
      (reply.isOk = true → ∀ rpc ∈ node.calls, rpc.id ≠ call) ∧ after = node

/-- What happens on the way to the SFUs and at the SFUs; a listener opens and drops the
channel to its SFU. -/
inductive Node.Moves (node : Node) : Node → Prop
  | starts {rpc : Rpc} : rpc ∈ node.inFlight →
      Moves node { node with
        inFlight := node.inFlight.erase rpc
        executing := insert rpc node.executing }
  | ends {rpc : Rpc} : Moves node { node with executing := node.executing.erase rpc }
  | lost {rpc : Rpc} : Moves node { node with inFlight := node.inFlight.erase rpc }
  | clients (clients : Finset Address) : Moves node { node with clients := clients }

abbrev Call := Program Op Op.Reply

abbrev issue (op : Op) : Call op.Reply := Program.perform op

/-! ## Calls to an SFU -/

/-- Open the channel to an SFU, unless there is one. -/
def channelFor (sfuAddr : Address) : Call (Except SfuClientError Unit) := do
  if ← issue (.hasClient sfuAddr) then return .ok ()
  else if ← issue (.connect sfuAddr) then
    issue (.insertClient sfuAddr)
    return .ok ()
  else return .error .connect

/-- The channel is dropped after a failure of this kind. -/
def Failure.invalidates : Failure → Bool
  | .status .other => false
  | _ => true

def Failure.error : Failure → SfuClientError
  | .status _ => .transport
  | .timeout => .timeout

def runRpc (sfuAddr : Address) (request : Request) : Call (Except SfuClientError Response) := do
  match ← channelFor sfuAddr with
  | .error error => return .error error
  | .ok () =>
      let call ← issue (.send request)
      match ← issue (.receive call) with
      | .ok response => return .ok response
      | .error failure =>
          if failure.invalidates then issue (.removeClient sfuAddr)
          return .error failure.error

def ensureSuccess (fallback : String) (response : Response) : Except SfuClientError Unit :=
  if response.success then .ok ()
  else .error (.rejected (response.errorMessage.getD fallback))

def cleanupPeerSdpState (roomId : RoomId) (nickname : Nickname) : Call Unit :=
  issue (.removePeerLock (sdpPeerKey roomId nickname))

def cleanupLocalPeerState (roomId : RoomId) (nickname : Nickname) : Call Unit :=
  cleanupPeerSdpState roomId nickname

def clear : Call Unit := do
  issue .clearClients
  issue .clearListeners
  issue .clearPeerLocks

/-- Start the listener of an SFU, unless it is noted to be running. -/
def ensureListener (sfuAddr : Address) : Call Unit := do
  if ← issue (.hasListener sfuAddr) then return ()
  else
    issue (.insertListener sfuAddr)
    issue (.spawnListener sfuAddr)

def ensurePeer (signalingId : NodeId) (sfuAddr : Address) (roomId : RoomId)
    (nickname : Nickname) : Call (Except SfuClientError Unit) := do
  ensureListener sfuAddr
  let response ← runRpc sfuAddr (.createPeer roomId nickname signalingId)
  return response.bind (ensureSuccess "SFU failed to create peer")

def deletePeer (sfuAddr : Address) (roomId : RoomId) (nickname : Nickname) (reason : String) :
    Call (Except SfuClientError Unit) := do
  let response ← runRpc sfuAddr (.deletePeer roomId nickname reason)
  cleanupPeerSdpState roomId nickname
  return response.bind (ensureSuccess "SFU failed to delete peer")

structure RemoteSdp where
  sdp : String
  sdpType : String

def handleSdp (sfuAddr : Address) (roomId : RoomId) (nickname : Nickname) (sdp sdpType : String) :
    Call (Except SfuClientError RemoteSdp) := do
  let peerMtx ← issue (.peerLock (sdpPeerKey roomId nickname))
  issue (.lock peerMtx)
  let response ← runRpc sfuAddr (.handleSdp roomId nickname sdp (parseSdpType sdpType))
  -- The guard is dropped on every way out.
  issue (.unlock peerMtx)
  return response.bind fun response =>
    (ensureSuccess "SFU rejected SDP" response).map fun _ =>
      { sdp := response.sdp, sdpType := formatSdpType response.sdpType }

def addIceCandidate (sfuAddr : Address) (roomId : RoomId) (nickname : Nickname)
    (candidate sdpMid : String) : Call (Except SfuClientError Unit) := do
  let response ← runRpc sfuAddr (.addIceCandidate roomId nickname candidate sdpMid)
  return response.bind (ensureSuccess "SFU rejected ICE candidate")

/-- A step on the way of a request to an SFU and back. -/
def Op.Carries (request : Request) : Op → Prop
  | .hasClient _ | .connect _ | .insertClient _ | .removeClient _ | .receive _ => True
  | .send sent => sent = request
  | _ => False

theorem channelFor_carries (sfuAddr : Address) (request : Request) :
    (channelFor sfuAddr).Only (Op.Carries request) := by
  refine ⟨trivial, fun known => ?_⟩
  cases known with
  | true => trivial
  | false =>
      refine ⟨trivial, fun connected => ?_⟩
      cases connected with
      | true => exact ⟨trivial, fun _ => trivial⟩
      | false => trivial

theorem runRpc_carries (sfuAddr : Address) (request : Request) :
    (runRpc sfuAddr request).Only (Op.Carries request) := by
  refine (channelFor_carries sfuAddr request).bind fun channel => ?_
  cases channel with
  | error error => trivial
  | ok =>
      refine ⟨rfl, fun call => ⟨trivial, fun response => ?_⟩⟩
      cases response with
      | ok response => trivial
      | error failure =>
          have removes : (Program.call (Op.removeClient sfuAddr) fun _ =>
              .ret (.error failure.error) : Call (Except SfuClientError Response)).Only
                (Op.Carries request) := ⟨trivial, fun _ => trivial⟩
          cases failure with
          | timeout => exact removes
          | status code =>
              cases code with
              | other => trivial
              | _ => exact removes

/-! ## Any number of calls -/

/-- A use of the registry. -/
inductive Task
  | ensureListener (sfuAddr : Address)
  | ensurePeer (signalingId : NodeId) (sfuAddr : Address) (roomId : RoomId) (nickname : Nickname)
  | deletePeer (sfuAddr : Address) (roomId : RoomId) (nickname : Nickname) (reason : String)
  | handleSdp (sfuAddr : Address) (roomId : RoomId) (nickname : Nickname) (sdp sdpType : String)
  | addIceCandidate (sfuAddr : Address) (roomId : RoomId) (nickname : Nickname)
      (candidate sdpMid : String)
  | cleanupLocalPeerState (roomId : RoomId) (nickname : Nickname)
  | clear

def Task.program : Task → Call Unit
  | .ensureListener sfuAddr => SfuRegistry.ensureListener sfuAddr
  | .ensurePeer signalingId sfuAddr roomId nickname =>
      Functor.mapConst () (SfuRegistry.ensurePeer signalingId sfuAddr roomId nickname)
  | .deletePeer sfuAddr roomId nickname reason =>
      Functor.mapConst () (SfuRegistry.deletePeer sfuAddr roomId nickname reason)
  | .handleSdp sfuAddr roomId nickname sdp sdpType =>
      Functor.mapConst () (SfuRegistry.handleSdp sfuAddr roomId nickname sdp sdpType)
  | .addIceCandidate sfuAddr roomId nickname candidate sdpMid =>
      Functor.mapConst () (SfuRegistry.addIceCandidate sfuAddr roomId nickname candidate sdpMid)
  | .cleanupLocalPeerState roomId nickname => SfuRegistry.cleanupLocalPeerState roomId nickname
  | .clear => SfuRegistry.clear

/-- How far a call has got. -/
inductive Phase
  | idle
  /-- It has found no listener. -/
  | missing (sfuAddr : Address)
  /-- It has noted a listener that it has not spawned yet. -/
  | noted (sfuAddr : Address)
  | queued (key : PeerKey) (mutex : MutexId)
  | holding (key : PeerKey) (mutex : MutexId)
  /-- It has sent an SDP and not heard of it yet. -/
  | negotiating (key : PeerKey) (mutex : MutexId) (call : CallId)
  deriving DecidableEq

namespace Phase

def locked : Phase → Phase
  | .queued key mutex => .holding key mutex
  | phase => phase

def sent (call : CallId) : Phase → Phase
  | .holding key mutex => .negotiating key mutex call
  | phase => phase

def heard : Phase → Phase
  | .negotiating key mutex _ => .holding key mutex
  | phase => phase

def advance (phase : Phase) : (op : Op) → op.Reply → Phase
  | .hasListener sfuAddr, known => if known then phase else .missing sfuAddr
  | .insertListener sfuAddr, _ => .noted sfuAddr
  | .spawnListener _, _ => .idle
  | .peerLock key, mutex => .queued key mutex
  | .lock _, _ => phase.locked
  | .send request, call => if request.negotiates.isSome then phase.sent call else phase
  | .receive _, _ => phase.heard
  | .unlock _, _ => .idle
  | _, _ => phase

end Phase

/-- What has happened to the listeners and calls so far. -/
structure History where
  /-- The listeners that were noted when the set was cleared. -/
  dropped : Finset Address := ∅
  /-- The calls whose callers have given up waiting. -/
  abandoned : Finset CallId := ∅

def History.note (history : History) : (op : Op) → Node → op.Reply → History
  | .clearListeners, before, _ => { history with dropped := history.dropped ∪ before.listeners }
  | .receive call, _, .error _ => { history with abandoned := insert call history.abandoned }
  | _, _, _ => history

/-- Any number of calls over one registry. -/
def registryCalls : System Op Op.Reply where
  State := Node × History
  Phase := Phase
  Result := Unit
  exec op before reply after :=
    exec op before.1 reply after.1 ∧ after.2 = before.2.note op before.1 reply
  advance := Phase.advance
  start before _ phase program after :=
    after = before ∧ phase = .idle ∧ ∃ task : Task, program = task.program
  finish state _ _ := state
  discard _ _ := False
  environment before _ after := before.1.Moves after.1 ∧ after.2 = before.2

/-- One outcome of each step; the hint says how a call or the opening of a channel ends. -/
def sample (hint : Except Failure Response) : (op : Op) → Node → Option (op.Reply × Node)
  | .hasClient sfuAddr, node => some (decide (sfuAddr ∈ node.clients), node)
  | .connect _, node => some (hint.isOk, node)
  | .insertClient sfuAddr, node =>
      some ((), { node with clients := insert sfuAddr node.clients })
  | .removeClient sfuAddr, node =>
      some ((), { node with clients := node.clients.erase sfuAddr })
  | .clearClients, node => some ((), { node with clients := ∅ })
  | .hasListener sfuAddr, node => some (decide (sfuAddr ∈ node.listeners), node)
  | .insertListener sfuAddr, node =>
      some ((), { node with listeners := insert sfuAddr node.listeners })
  | .spawnListener sfuAddr, node =>
      some ((), { node with running := sfuAddr ::ₘ node.running })
  | .clearListeners, node => some ((), { node with listeners := ∅ })
  | .peerLock key, node => some (node.peerLock key)
  | .removePeerLock key, node =>
      some ((), { node with sdpPeerLocks := node.sdpPeerLocks.erase key })
  | .clearPeerLocks, node => some ((), { node with sdpPeerLocks := ∅ })
  | .lock mutex, node =>
      if mutex ∈ node.held then none else some ((), { node with held := insert mutex node.held })
  | .unlock mutex, node => some ((), { node with held := node.held.erase mutex })
  | .send request, node => some (node.nextCall, node.send request)
  | .receive call, node =>
      if hint.isOk = true → ∀ rpc ∈ node.calls, rpc.id ≠ call then some (hint, node) else none

theorem sample_sound {hint : Except Failure Response} {op : Op} {node after : Node}
    {reply : op.Reply} (sampled : sample hint op node = some (reply, after)) :
    exec op node reply after := by
  cases op with
  | lock mutex =>
      obtain ⟨free, same⟩ := Option.ite_none_left_eq_some.mp sampled
      cases same
      exact ⟨free, rfl⟩
  | receive call =>
      obtain ⟨through, same⟩ := Option.ite_none_right_eq_some.mp sampled
      cases same
      exact ⟨through, rfl⟩
  | peerLock key => exact (Option.some.inj sampled).symm
  | _ =>
      cases sampled
      first
        | rfl
        | exact ⟨rfl, rfl⟩

/-- One outcome of each step, and what it adds to the history. -/
def registrySampler : registryCalls.Sampler (Except Failure Response) where
  sample hint op state := (sample hint op state.1).map fun outcome =>
    (outcome.1, outcome.2, state.2.note op state.1 outcome.1)
  sound := by
    intro hint op state reply after sampled
    obtain ⟨⟨answer, node⟩, found, same⟩ := Option.map_eq_some_iff.mp sampled
    cases same
    exact ⟨sample_sound found, rfl⟩

/-- Some calls before their first step. -/
def launched (tasks : List Task) : List registryCalls.Thread :=
  tasks.map fun task => ⟨.idle, task.program⟩

theorem reaches_launched {guard : registryCalls.Guard} (state : Node × History)
    (tasks : List Task) : Reaches guard ⟨state, []⟩ ⟨state, launched tasks⟩ := by
  refine reaches_start fun thread member others => ?_
  obtain ⟨task, -, rfl⟩ := List.mem_map.mp member
  exact ⟨rfl, rfl, task, rfl⟩

end Callifornia.Signaling.SfuRegistry
