import Callifornia.Connector.Session
import Callifornia.Connector.Token
import Callifornia.Signaling.Assignment
import Callifornia.Signaling.TokenFormat

/-! # Where a join is sent

A room is bound by the node that creates it. The connector issues the token for a join for the
node whose address the binding names; a node takes a join on if the binding names its host and
its port. The two agree for every node.
-/

namespace Callifornia.Connector

open Concurrency Concurrency.Program FiniteMap Store Signaling

/-- Why there is no route. -/
inductive RouteError
  | roomNotFound
  | invalidRoomRoute
  | redis (error : RedisError)
  deriving DecidableEq

structure RoomRoute where
  signalingInstanceId : NodeId
  deriving DecidableEq

/-- The route a binding hash describes. -/
def RoomRoute.ofFields (values : Map String String) : Except RouteError RoomRoute :=
  if values = ∅ then .error .roomNotFound
  else
    match (values.lookup "owner_host").filter (· ≠ ""),
        (values.lookup "owner_port").filter (· ≠ "") with
    | some host, some port => .ok { signalingInstanceId := host ++ ":" ++ port }
    | _, _ => .error .invalidRoomRoute

def getRoomRoute (roomId : RoomId) : ExceptT RouteError Call RoomRoute := do
  let values ← redisCommand (.redis ∘ .ofFailure) (.hgetall (.binding roomId))
  ExceptT.mk (return RoomRoute.ofFields values)

namespace Routing

/-! ## Addresses -/

section Addresses

variable {host other : String} {port otherPort : UInt16}

theorem colon_notMem_port : ':' ∉ (toString port.toNat).toList := by
  have digits : (toString port.toNat).toList = Nat.toDigits 10 port.toNat := Nat.toList_repr
  rw [digits]
  intro member
  exact absurd (Nat.isDigit_of_mem_toDigits (by decide) (by decide) member) (by decide)

theorem port_ne_empty : toString port.toNat ≠ "" := by
  intro empty
  have parsed := parseU16_toString port
  rw [empty] at parsed
  exact absurd parsed (Option.some_ne_none port).symm

/-- A host may have colons; the port starts after the last one. -/
theorem address_inj :
    host ++ ":" ++ toString port.toNat = other ++ ":" ++ toString otherPort.toNat ↔
      host = other ∧ port = otherPort := by
  constructor
  · intro same
    have backwards := congrArg (fun address => address.toList.reverse) same
    simp only [String.toList_append, List.reverse_append, List.append_assoc] at backwards
    obtain ⟨ports, hosts⟩ := Text.append_separator_inj
      (mt List.mem_reverse.mp colon_notMem_port) (mt List.mem_reverse.mp colon_notMem_port)
      backwards
    have ports := congrArg parseU16 (String.toList_inj.mp (List.reverse_injective ports))
    rw [parseU16_toString, parseU16_toString] at ports
    exact ⟨String.toList_inj.mp (List.reverse_injective hosts), Option.some.inj ports⟩
  · rintro ⟨rfl, rfl⟩
    rfl

end Addresses

/-! ## What a binding names -/

section Bindings

variable {node : State} {roomId : RoomId} {hash : Hash} {world after : World}

/-- The binding names a node as the owner. -/
structure Owns (node : State) (hash : Hash) : Prop where
  host : hash.get "owner_host" = some node.config.signalingPublicHost
  port : hash.get "owner_port" = some (toString node.config.signalingPublicPort.toNat)

theorem Owns.named_host (named : node.config.signalingPublicHost ≠ "") (owned : Owns node hash) :
    (hash.fields.lookup "owner_host").filter (· ≠ "") =
      some node.config.signalingPublicHost := by
  rw [show hash.fields.lookup "owner_host" = _ from owned.host, Option.filter_some,
    if_pos (decide_eq_true named)]

/-- The connector puts the two fields together again. -/
theorem ofFields_owned (named : node.config.signalingPublicHost ≠ "") (owned : Owns node hash) :
    RoomRoute.ofFields hash.fields = .ok ⟨node.config.publicNodeId⟩ := by
  have port : (hash.fields.lookup "owner_port").filter (· ≠ "") =
      some (toString node.config.signalingPublicPort.toNat) := by
    rw [show hash.fields.lookup "owner_port" = _ from owned.port, Option.filter_some,
      if_pos (decide_eq_true port_ne_empty)]
  rw [RoomRoute.ofFields, if_neg hash.nonempty, owned.named_host named, port]
  rfl

/-- A signaling node reads them separately. -/
theorem signaling_ofFields_owned (named : node.config.signalingPublicHost ≠ "")
    (owned : Owns node hash) : ∃ route, Signaling.RoomRoute.ofFields hash.fields = .ok route ∧
      route.ownerHost = node.config.signalingPublicHost ∧
      route.ownerPort = node.config.signalingPublicPort := by
  have port : (hash.fields.lookup "owner_port").bind parseU16 =
      some node.config.signalingPublicPort := by
    rw [show hash.fields.lookup "owner_port" = _ from owned.port, Option.bind_some,
      parseU16_toString]
  rw [Signaling.RoomRoute.ofFields, if_neg hash.nonempty, owned.named_host named, port]
  exact ⟨_, rfl, rfl, rfl⟩

/-- The room that a node creates is its own. -/
theorem owns_created {result : Except RedisRoomError SfuAssignment}
    (unbound : roomId ∉ world.redis.bindings)
    (created : (assignRoomToLeastLoadedSfu roomId node.config.publicNodeId
      node.config.signalingPublicHost node.config.signalingPublicPort).run.Runs World.exec world
        result after) (bound : roomId ∈ after.redis.bindings) :
    ∃ hash, after.redis.bindings.lookup roomId = some hash ∧ Owns node hash := by
  obtain ⟨records, -, outcome⟩ := Assignment.assign_runs.mp created
  obtain ⟨-, rfl⟩ := Prod.mk.inj outcome
  have absent : (world.redis.bindings.lookup roomId).isSome = false := by
    rw [Option.isSome_eq_false_iff, Option.isNone_iff_eq_none]
    exact Finmap.lookup_eq_none.mpr unbound
  unfold Redis.assignRoomToSfu at bound ⊢
  cases chosen : world.redis.bestInstance (world.now / 1000 : ℕ) 30 records with
  | none =>
      rw [chosen] at bound
      exact absurd bound unbound
  | some record =>
      simp only [absent, Bool.false_eq_true, ↓reduceIte]
      obtain ⟨hash, found, fields⟩ := (Assignment.bound_assign world.redis record).binding
      exact ⟨hash, found, fields _, fields _⟩

end Bindings

/-! ## Routes and tokens -/

variable {node : State} {roomId : RoomId} {world after later : World}

/-- What both services do with a binding. -/
theorem runs_readBinding {ε α : Type} {onFailure : RedisFailure → ε} {hash : Hash}
    {read : Map String String → Except ε α} {result : Except ε α}
    (found : world.redis.bindings.lookup roomId = some hash) :
    (do let values ← redisCommand onFailure (.hgetall (.binding roomId))
        ExceptT.mk (return read values) : ExceptT ε Call α).run.Runs World.exec world result
        after ↔ result = read hash.fields ∧ after = world := by
  have fields : ((world.redis.hash (.binding roomId)).map Hash.fields).getD ∅ = hash.fields := by
    rw [Redis.hash, found]
    rfl
  refine runs_redisCommand_bind.trans ⟨?_, ?_⟩
  · rintro ⟨_, _, ⟨rfl, rfl⟩, rfl, rfl⟩
    rw [fields]
    exact ⟨rfl, rfl⟩
  · rintro ⟨rfl, rfl⟩
    exact ⟨_, _, ⟨rfl, rfl⟩, by rw [fields], rfl⟩

/-- A token that is not expired is for the node with the id in it. -/
theorem validate_issued {jwt : Jwt} {secret : String} {ttlSecs : ℕ} {sessionId : SessionId}
    {nickname : Nickname} {instanceId expectedInstanceId : NodeId} {intent : String}
    {room : Option RoomId} {token : String}
    (issued : (issueToken jwt secret ttlSecs sessionId nickname instanceId intent room).Runs
      World.exec world token after) {now : ℤ}
    (live : now ≤ (world.now / 1000 + ttlSecs + Jwt.leeway : ℕ)) :
    ∃ claims, validateConnectorToken jwt token secret expectedInstanceId now =
      if instanceId = expectedInstanceId then .ok claims else .error .wrongInstance := by
  obtain ⟨_, start, clock, run⟩ := runs_bind.mp issued
  obtain ⟨rfl, rfl⟩ := runs_unixNow.mp clock
  obtain ⟨jti, _, -, rfl, -⟩ := runs_bind.mp run
  refine ⟨⟨jti, sessionId, nickname, instanceId, intent, room, start.now / 1000,
    start.now / 1000 + ttlSecs⟩, ?_⟩
  rw [validateConnectorToken, jwt.decode_encode]
  simp only [Int.toNat_natCast]
  rw [if_neg (not_lt.mpr live)]
  by_cases same : instanceId = expectedInstanceId
  · rw [if_neg (not_not_intro same), if_pos same]
  · rw [if_pos same, if_neg same]

/-- **Join routing agrees**: a join for a room that a node has created is sent to that node's
id, and a node accepts the token exactly if the room is its own. -/
theorem routing_agrees (named : node.config.signalingPublicHost ≠ "")
    (unbound : roomId ∉ world.redis.bindings) {result : Except RedisRoomError SfuAssignment}
    (created : (assignRoomToLeastLoadedSfu roomId node.config.publicNodeId
      node.config.signalingPublicHost node.config.signalingPublicPort).run.Runs World.exec world
        result after) (bound : roomId ∈ after.redis.bindings)
    (same : later.redis.bindings.lookup roomId = after.redis.bindings.lookup roomId) :
    (∀ routed last, (getRoomRoute roomId).run.Runs World.exec later routed last ↔
      routed = .ok ⟨node.config.publicNodeId⟩ ∧ last = later) ∧
    ∃ route, (∀ routed last,
        (Signaling.getRoomRoute roomId).run.Runs World.exec later routed last ↔
          routed = .ok route ∧ last = later) ∧
      ∀ jwt secret ttlSecs sessionId nickname issuedIn token issuedAfter,
        (issueToken jwt secret ttlSecs sessionId nickname node.config.publicNodeId "join"
          (some roomId)).Runs World.exec issuedIn token issuedAfter →
        ∀ (other : State) (now : ℤ), now ≤ (issuedIn.now / 1000 + ttlSecs + Jwt.leeway : ℕ) →
          ∃ claims, validateConnectorToken jwt token secret other.config.publicNodeId now =
            if isLocalTarget other route then .ok claims else .error .wrongInstance := by
  obtain ⟨hash, found, owned⟩ := owns_created unbound created bound
  rw [← same] at found
  obtain ⟨route, read, host, port⟩ := signaling_ofFields_owned named owned
  refine ⟨fun routed last => ?_, route, fun routed last => ?_, ?_⟩
  · exact (runs_readBinding found).trans (by rw [ofFields_owned named owned])
  · exact (runs_readBinding found).trans (by rw [read])
  · intro jwt secret ttlSecs sessionId nickname issuedIn token issuedAfter issued other now live
    obtain ⟨claims, validated⟩ := @validate_issued _ _ _ _ _ _ _ _ other.config.publicNodeId _ _ _
      issued _ live
    refine ⟨claims, validated.trans (if_congr ?_ rfl rfl)⟩
    rw [isLocalTarget, decide_eq_true_eq, host, port]
    exact address_inj

/-- A node whose host has colons. -/
def localNode : State where
  config :=
    { signalingPublicHost := "::1"
      signalingPublicPort := 8080
      connectorTokenSecret := "secret"
      sessionLockTtlMs := 5000
      loopBound := 8 }

/-- A node on the same host. -/
def nextNode : State where
  config := { localNode.config with signalingPublicPort := 8081 }

/-- The token for a join at the first node. -/
def joinToken : String :=
  TokenFormat.openJwt.encode "secret"
    { jti := "token-1", sessionId := "session-1", nickname := "alice"
      signalingInstanceId := localNode.config.publicNodeId, intent := "join"
      roomId := some "room-1", iat := 0, exp := 60 }

/-- One node creates a room: a join is sent to it, and it takes the token for that join, which
the other node refuses. -/
theorem routing_agrees_colons : ∃ (after issued : World) (route : Signaling.RoomRoute),
    (getRoomRoute "room-1").run.Runs World.exec after (.ok ⟨"::1:8080"⟩) after ∧
    (Signaling.getRoomRoute "room-1").run.Runs World.exec after (.ok route) after ∧
    (issueToken TokenFormat.openJwt "secret" 60 "session-1" "alice" "::1:8080" "join"
      (some "room-1")).Runs World.exec World.fresh joinToken issued ∧
    (∃ claims, validateConnectorToken TokenFormat.openJwt joinToken "secret" "::1:8080" 0 =
      if isLocalTarget localNode route then .ok claims else .error .wrongInstance) ∧
    (∃ claims, validateConnectorToken TokenFormat.openJwt joinToken "secret" "::1:8081" 0 =
      if isLocalTarget nextNode route then .ok claims else .error .wrongInstance) ∧
    isLocalTarget localNode route = true ∧ isLocalTarget nextNode route = false := by
  have lists : (Assignment.onlyInstance "sfu-1").redis.Lists
      [Assignment.readyInstance "sfu-1"] := rfl
  have created := (@Assignment.assign_runs "room-1" localNode.config.publicNodeId
    localNode.config.signalingPublicHost localNode.config.signalingPublicPort _ _ _).mpr
    ⟨_, lists, rfl⟩
  obtain ⟨routes, route, reads, accepts⟩ := @routing_agrees localNode "room-1"
    (Assignment.onlyInstance "sfu-1") _ _ (by decide) Finmap.notMem_empty _ created (by decide) rfl
  have issued : (issueToken TokenFormat.openJwt "secret" 60 "session-1" "alice" "::1:8080" "join"
      (some "room-1")).Runs World.exec World.fresh joinToken _ :=
    runs_bind.mpr ⟨_, _, runs_unixNow.mpr ⟨rfl, rfl⟩, "token-1", _,
      ⟨⟨Finset.notMem_empty _, by decide⟩, rfl⟩, rfl, rfl⟩
  have taken := accepts _ _ _ _ _ _ _ _ issued localNode 0 (by decide)
  have refused := accepts _ _ _ _ _ _ _ _ issued nextNode 0 (by decide)
  refine ⟨_, _, route, (routes _ _).mpr ⟨rfl, rfl⟩, (reads _ _).mpr ⟨rfl, rfl⟩, issued, taken,
    refused, ?_, ?_⟩
  · obtain ⟨claims, taken⟩ := taken
    by_contra other
    rw [if_neg other] at taken
    exact absurd taken (by decide +kernel)
  · obtain ⟨claims, refused⟩ := refused
    cases same : isLocalTarget nextNode route with
    | false => rfl
    | true =>
        rw [if_pos same] at refused
        have wrong : validateConnectorToken TokenFormat.openJwt joinToken "secret"
            nextNode.config.publicNodeId 0 = .error .wrongInstance := by decide +kernel
        cases wrong.symm.trans refused

end Routing

end Callifornia.Connector
