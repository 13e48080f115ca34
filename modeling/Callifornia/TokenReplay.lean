import Callifornia.Connector.Token
import Callifornia.Runs
import Callifornia.Signaling.TokenFormat

/-! # Replay of a connector token

An attach uses up the id of its token by setting a key that must not exist. The
key lives for a time measured from the first use, while the token is valid for a
time measured from its issue, to which the token library adds its leeway. A token
is accepted a second time exactly when it is presented after the key has expired
and before the token has.
-/

namespace Callifornia.TokenReplay

open Concurrency Concurrency.Program FiniteMap Store Signaling
open TokenFormat (openJwt)

/-- The token is still valid at a time in milliseconds. -/
def Valid (claims : ConnectorClaims) (time : ℕ) : Prop :=
  time / 1000 ≤ claims.exp + Jwt.leeway

/-- The time in milliseconds for which a used token id is remembered. -/
def memory (claims : ConnectorClaims) : ℕ := (max (claims.exp - claims.iat) 60 + 30) * 1000

/-- What the store holds under the id of a token. -/
def used (world : World) (jti : String) : Option StringValue :=
  world.redis.strings.lookup (.jti jti)

/-- Time passes. Nobody else uses the token's id, so its key only expires. -/
def Waits (jti : String) (before : World) (time : ℕ) (after : World) : Prop :=
  before.now ≤ time ∧ after.now = time ∧
    used after jti = (used before jti).filter fun key => ∀ deadline ∈ key.deadline, time ≤ deadline

/-- A sequence of attempts to attach with one token: when each was made, and
whether it was accepted. -/
inductive Attempts (state : State) (jwt : Jwt) (token jti : String) :
    World → List (ℕ × Bool) → Prop
  | done (world : World) : Attempts state jwt token jti world []
  | attempt {world waited after : World} {time : ℕ} {rest : List (ℕ × Bool)}
      {result : Except WsHandlerError ConnectorClaims} :
      Waits jti world time waited →
      (admitToken state jwt token).run.Runs World.exec waited result after →
      Attempts state jwt token jti after rest →
      Attempts state jwt token jti world ((time, result.isOk) :: rest)

/-- How many attempts were accepted. -/
def accepted (attempts : List (ℕ × Bool)) : ℕ := attempts.countP Prod.snd

section Attempt

variable {state : State} {jwt : Jwt} {claims : ConnectorClaims} {token : String}
  {world after : World} {result : Except WsHandlerError ConnectorClaims}

theorem validate_of_valid {time : ℕ} (valid : Valid claims time)
    (decoded : jwt.decode state.config.connectorTokenSecret token = some claims)
    (here : claims.signalingInstanceId = state.config.publicNodeId) :
    validateConnectorToken jwt token state.config.connectorTokenSecret
      state.config.publicNodeId (time / 1000 : ℕ) = .ok claims := by
  have live : ¬ ((claims.exp + Jwt.leeway : ℕ) : ℤ) < (time / 1000 : ℕ) := by
    have bound : time / 1000 ≤ claims.exp + Jwt.leeway := valid
    omega
  unfold validateConnectorToken
  simp only [decoded, if_neg live, here, ne_eq, not_true_eq_false, ↓reduceIte]

theorem validate_of_not_valid {time : ℕ} (expired : ¬ Valid claims time)
    (decoded : jwt.decode state.config.connectorTokenSecret token = some claims) :
    validateConnectorToken jwt token state.config.connectorTokenSecret
      state.config.publicNodeId (time / 1000 : ℕ) = .error .invalid := by
  have late : ((claims.exp + Jwt.leeway : ℕ) : ℤ) < (time / 1000 : ℕ) := by
    have bound : ¬ time / 1000 ≤ claims.exp + Jwt.leeway := expired
    omega
  unfold validateConnectorToken
  simp only [decoded, if_pos late]

/-- A valid token is accepted when its id is unused, and its id is then used. -/
theorem admitToken_of_valid (valid : Valid claims world.now)
    (decoded : jwt.decode state.config.connectorTokenSecret token = some claims)
    (here : claims.signalingInstanceId = state.config.publicNodeId) (named : claims.jti ≠ "")
    (run : (admitToken state jwt token).run.Runs World.exec world result after) :
    after.now = world.now ∧ result.isOk = (used world claims.jti).isNone ∧
      used after claims.jti =
        if (used world claims.jti).isNone then some ⟨"1", some (world.now + memory claims)⟩
        else used world claims.jti := by
  simp only [admitToken, runs_lift_bind, runs_unixNow, and_assoc, exists_and_left, exists_eq_left,
    validate_of_valid valid decoded here, if_neg named] at run
  obtain ⟨_, middle, consume, run⟩ := runs_except_bind.mp run
  obtain ⟨_, set, rfl⟩ := runs_adapt.mp consume
  obtain ⟨consumed, redis, ⟨unused, effect⟩, rfl, rfl⟩ := runs_redisCommand.mp set
  change redis = if (used world claims.jti).isNone = true then _ else world.redis at effect
  change consumed = (used world claims.jti).isNone at unused
  subst unused effect
  cases fresh : (used world claims.jti).isNone with
  | true =>
      simp only [Except.mapError, fresh, ↓reduceIte, runs_except_pure] at run
      obtain ⟨rfl, rfl⟩ := run
      refine ⟨rfl, rfl, ?_⟩
      simp only [used, ↓reduceIte, lookup_insert_if, memory, Option.map_some]
      rw [Nat.max_eq_left (by omega)]
  | false =>
      simp only [Except.mapError, fresh, Bool.false_eq_true, ↓reduceIte, runs_except_throw] at run
      obtain ⟨rfl, rfl⟩ := run
      exact ⟨rfl, rfl, rfl⟩

/-- The deployment after a token was used. -/
def afterUse (world : World) (claims : ConnectorClaims) : World :=
  { world with
    redis :=
      { world.redis with
        strings := world.redis.strings.insert (.jti claims.jti)
          ⟨"1", some (world.now + memory claims)⟩ } }

/-- A valid token whose id is unused can be used. -/
theorem admitToken_accepts (valid : Valid claims world.now)
    (decoded : jwt.decode state.config.connectorTokenSecret token = some claims)
    (here : claims.signalingInstanceId = state.config.publicNodeId) (named : claims.jti ≠ "")
    (unused : used world claims.jti = none) :
    (admitToken state jwt token).run.Runs World.exec world (.ok claims)
      (afterUse world claims) := by
  have free : (world.redis.strings.lookup (.jti claims.jti)).isNone = true := by
    rw [← used, unused]
    rfl
  simp only [admitToken, runs_lift_bind, runs_unixNow, and_assoc, exists_and_left, exists_eq_left,
    validate_of_valid valid decoded here, if_neg named]
  refine runs_except_bind.mpr ⟨.ok true, afterUse world claims, runs_adapt.mpr ⟨.ok true, ?_, rfl⟩,
    rfl, rfl⟩
  refine runs_redisCommand.mpr ⟨true, (afterUse world claims).redis, ⟨free.symm, ?_⟩, rfl, rfl⟩
  have positive : max (max (claims.exp - claims.iat) 60 + 30) 1 =
      max (claims.exp - claims.iat) 60 + 30 := by omega
  rw [if_pos free, positive]
  rfl

/-- An expired token is refused and touches nothing. -/
theorem admitToken_of_not_valid (expired : ¬ Valid claims world.now)
    (decoded : jwt.decode state.config.connectorTokenSecret token = some claims)
    (run : (admitToken state jwt token).run.Runs World.exec world result after) :
    after = world ∧ result.isOk = false := by
  simp only [admitToken, runs_lift_bind, runs_unixNow, and_assoc, exists_and_left, exists_eq_left,
    validate_of_not_valid expired decoded, runs_except_throw] at run
  obtain ⟨rfl, rfl⟩ := run
  exact ⟨rfl, rfl⟩

end Attempt

/-! ## Sequences of attempts -/

theorem Valid.earlier {claims : ConnectorClaims} {first second : ℕ} (order : first ≤ second)
    (valid : Valid claims second) : Valid claims first :=
  Nat.le_trans (Nat.div_le_div_right order) valid

theorem accepted_cons (time : ℕ) (passed : Bool) (rest : List (ℕ × Bool)) :
    accepted ((time, passed) :: rest) = accepted rest + if passed then 1 else 0 := by
  simp only [accepted, List.countP_cons]

section Sequence

variable {state : State} {jwt : Jwt} {claims : ConnectorClaims} {token : String} {world : World}
  {attempts : List (ℕ × Bool)}

/-- Once a token has expired, no attempt is valid and none is accepted. -/
theorem accepted_of_expired
    (decoded : jwt.decode state.config.connectorTokenSecret token = some claims)
    (sequence : Attempts state jwt token claims.jti world attempts)
    (expired : ¬ Valid claims world.now) :
    accepted attempts = 0 ∧ ∀ attempt ∈ attempts, ¬ Valid claims attempt.1 := by
  induction sequence with
  | done world => exact ⟨rfl, fun _ member => (List.not_mem_nil member).elim⟩
  | attempt waits run rest ih =>
      obtain ⟨later, now, -⟩ := waits
      have late := fun valid => expired (Valid.earlier later valid)
      rw [← now] at late
      obtain ⟨rfl, refused⟩ := admitToken_of_not_valid late decoded run
      obtain ⟨none, all⟩ := ih late
      refine ⟨?_, fun attempt member => ?_⟩
      · rw [accepted_cons, none, refused]
        rfl
      · rcases List.mem_cons.mp member with rfl | member
        · rw [← now]
          exact late
        · exact all attempt member

/-- While the id of a token is remembered, an attempt is accepted exactly when it
is made after that time with a token that is still valid. -/
theorem accepted_of_used
    (decoded : jwt.decode state.config.connectorTokenSecret token = some claims)
    (here : claims.signalingInstanceId = state.config.publicNodeId) (named : claims.jti ≠ "")
    (sequence : Attempts state jwt token claims.jti world attempts) {value : String}
    {deadline : ℕ} (remembered : used world claims.jti = some ⟨value, some deadline⟩) :
    accepted attempts = 0 ↔
      ∀ attempt ∈ attempts, Valid claims attempt.1 → attempt.1 ≤ deadline := by
  induction sequence with
  | done world => exact ⟨fun _ _ member => (List.not_mem_nil member).elim, fun _ => rfl⟩
  | @attempt world waited after time rest result waits run tail ih =>
      obtain ⟨later, now, kept⟩ := waits
      rw [remembered] at kept
      rw [accepted_cons, List.forall_mem_cons]
      by_cases valid : Valid claims time
      · rw [← now] at valid
        obtain ⟨still, passed, marked⟩ := admitToken_of_valid valid decoded here named run
        by_cases early : time ≤ deadline
        · have present : used waited claims.jti = some ⟨value, some deadline⟩ := by
            rw [kept, Option.filter_some_pos]
            simpa using early
          rw [present] at passed marked
          rw [passed, ← ih marked]
          simp [early]
        · have absent : used waited claims.jti = none := by
            rw [kept]
            simpa using early
          rw [absent] at passed
          rw [passed, ← now]
          simp only [Option.isNone_none, ↓reduceIte, Nat.add_eq_zero_iff, one_ne_zero, and_false,
            false_iff, not_and]
          intro before
          rw [now] at before
          exact absurd (before (now ▸ valid)) early
      · rw [← now] at valid
        obtain ⟨rfl, refused⟩ := admitToken_of_not_valid valid decoded run
        obtain ⟨none, all⟩ := accepted_of_expired decoded tail valid
        rw [refused, none, ← now]
        simp only [Bool.false_eq_true, ↓reduceIte, valid, IsEmpty.forall_iff, true_and, true_iff]
        intro attempt member valid
        exact absurd valid (all attempt member)

/-- A token whose id is unused is accepted at most once exactly when no attempt
falls after the first one was forgotten and before the token expires. -/
theorem accepted_of_unused
    (decoded : jwt.decode state.config.connectorTokenSecret token = some claims)
    (here : claims.signalingInstanceId = state.config.publicNodeId) (named : claims.jti ≠ "")
    (sequence : Attempts state jwt token claims.jti world attempts)
    (unused : used world claims.jti = none) :
    accepted attempts ≤ 1 ↔ ∀ first ∈ attempts.head?, ∀ attempt ∈ attempts,
      Valid claims attempt.1 → attempt.1 ≤ first.1 + memory claims := by
  cases sequence with
  | done => simp [accepted]
  | @attempt _ waited after time rest result waits run tail =>
      obtain ⟨later, now, kept⟩ := waits
      have free : used waited claims.jti = none := by
        rw [kept, unused]
        rfl
      have self : time ≤ time + memory claims := Nat.le_add_right _ _
      rw [accepted_cons]
      simp only [List.head?_cons, Option.mem_def, Option.some.injEq, forall_eq',
        List.forall_mem_cons, self, implies_true, true_and]
      by_cases valid : Valid claims time
      · rw [← now] at valid
        obtain ⟨still, passed, marked⟩ := admitToken_of_valid valid decoded here named run
        rw [free] at passed marked
        have remaining := accepted_of_used decoded here named tail marked
        rw [now] at remaining
        rw [passed, ← remaining]
        simp
      · rw [← now] at valid
        obtain ⟨rfl, refused⟩ := admitToken_of_not_valid valid decoded run
        obtain ⟨none, all⟩ := accepted_of_expired decoded tail valid
        rw [refused, none]
        simp only [Bool.false_eq_true, ↓reduceIte, Nat.zero_add, Nat.zero_le, true_iff]
        intro attempt member alive
        exact absurd alive (all attempt member)

end Sequence

/-! ## Tokens of the connector -/

section Issued

variable {state : State} {jwt : Jwt} {ttlSecs : ℕ} {sessionId : SessionId} {nickname : Nickname}
  {intent : String} {roomId : Option RoomId} {token : String} {issuer world : World}

/-- The claims of a token the connector issued. -/
theorem issueToken_spec {secret : String} {nodeId : NodeId} {claims : ConnectorClaims}
    (drawn : ∀ jti, used issuer jti ≠ none → jti ∈ issuer.issued)
    (issued : (Connector.issueToken jwt secret ttlSecs sessionId nickname nodeId intent
      roomId).Runs World.exec issuer token world)
    (decoded : jwt.decode secret token = some claims) :
    claims.jti ≠ "" ∧ claims.signalingInstanceId = nodeId ∧ claims.iat = issuer.now / 1000 ∧
      claims.exp = issuer.now / 1000 + ttlSecs ∧ world.now = issuer.now ∧
      used world claims.jti = none := by
  obtain ⟨_, issuer, ⟨rfl, rfl⟩, jti, middle, ⟨⟨fresh, named⟩, rfl⟩, rfl, rfl⟩ := issued
  rw [jwt.decode_encode] at decoded
  obtain rfl := Option.some.inj decoded
  have unused : used issuer jti = none := by
    by_contra taken
    exact fresh (drawn jti taken)
  exact ⟨named, rfl, rfl, rfl, rfl, unused⟩

/-- **A token is accepted at most once** exactly when no attempt is made later than
the time for which its first use is remembered and before its validity ends. -/
theorem accepted_once_iff {claims : ConnectorClaims} {attempts : List (ℕ × Bool)}
    (drawn : ∀ jti, used issuer jti ≠ none → jti ∈ issuer.issued)
    (issued : (Connector.issueToken jwt state.config.connectorTokenSecret ttlSecs sessionId
      nickname state.config.publicNodeId intent roomId).Runs World.exec issuer token world)
    (decoded : jwt.decode state.config.connectorTokenSecret token = some claims)
    (sequence : Attempts state jwt token claims.jti world attempts) :
    accepted attempts ≤ 1 ↔ ∀ first ∈ attempts.head?, ∀ attempt ∈ attempts,
      attempt.1 / 1000 ≤ issuer.now / 1000 + ttlSecs + 60 →
        attempt.1 ≤ first.1 + (max ttlSecs 60 + 30) * 1000 := by
  obtain ⟨named, here, iat, exp, -, unused⟩ := issueToken_spec drawn issued decoded
  rw [accepted_of_unused decoded here named sequence unused]
  unfold Valid memory Jwt.leeway
  rw [exp, iat, Nat.add_sub_cancel_left]

end Issued

/-! ## A token used twice -/

/-- A signaling node. -/
def node : State where
  config :=
    { signalingPublicHost := "127.0.0.1", signalingPublicPort := 8080
      connectorTokenSecret := "dev-connector-token-secret", sessionLockTtlMs := 5000
      loopBound := 0 }

/-- The claims of a token issued at time zero with the default lifetime. -/
def replayed : ConnectorClaims :=
  { jti := "token-1", sessionId := "session-1", nickname := "alice"
    signalingInstanceId := node.config.publicNodeId, intent := "create", roomId := none
    iat := 0, exp := 120 }

/-- The deployment once the token is issued. -/
def issuedWorld : World := { World.fresh with issued := {"token-1"} }

theorem issued_replayed :
    (Connector.issueToken openJwt node.config.connectorTokenSecret 120 "session-1" "alice"
      node.config.publicNodeId "create" none).Runs World.exec World.fresh
        (openJwt.encode node.config.connectorTokenSecret replayed) issuedWorld :=
  ⟨_, _, ⟨rfl, rfl⟩, "token-1", _, ⟨⟨by decide, by decide⟩, rfl⟩, rfl, rfl⟩

theorem waits_elapse (jti : String) (world : World) {time : ℕ} (later : world.now ≤ time) :
    Waits jti world time (world.elapse time) :=
  ⟨later, rfl, lookup_filter _ _ _⟩

/-- The token is used at once and again after 151 seconds. -/
theorem attempts_replayed :
    Attempts node openJwt (openJwt.encode node.config.connectorTokenSecret replayed)
      replayed.jti issuedWorld [(0, true), (151000, true)] := by
  have decoded := openJwt.decode_encode node.config.connectorTokenSecret replayed
  have first : (admitToken node openJwt _).run.Runs World.exec (issuedWorld.elapse 0)
      (.ok replayed) _ := admitToken_accepts (Nat.zero_le _) decoded rfl (by decide) (by decide)
  have second : (admitToken node openJwt _).run.Runs World.exec
      ((afterUse (issuedWorld.elapse 0) replayed).elapse 151000) (.ok replayed) _ :=
    admitToken_accepts (by unfold Valid; decide) decoded rfl (by decide) (by decide)
  exact .attempt (waits_elapse _ _ (by decide)) first
    (.attempt (waits_elapse _ _ (by decide)) second (.done _))

/-- The rule applied to that token: it was not accepted at most once, because the
second attempt fell after its id was forgotten and before it expired. -/
theorem accepted_once_iff_replayed :
    accepted [(0, true), (151000, true)] ≤ 1 ↔
      ∀ first ∈ [(0, true), (151000, true)].head?, ∀ attempt ∈ [(0, true), (151000, true)],
        attempt.1 / 1000 ≤ 0 / 1000 + 120 + 60 →
          attempt.1 ≤ first.1 + (max 120 60 + 30) * 1000 :=
  accepted_once_iff (fun _ taken => absurd rfl taken) issued_replayed
    (openJwt.decode_encode _ replayed) attempts_replayed

/-- **A token is accepted twice**: with the default lifetime of 120 seconds its id
is forgotten after 150 seconds, and it stays valid for 180. -/
theorem accepted_twice :
    (Connector.issueToken openJwt node.config.connectorTokenSecret 120 "session-1" "alice"
      node.config.publicNodeId "create" none).Runs World.exec World.fresh
        (openJwt.encode node.config.connectorTokenSecret replayed) issuedWorld ∧
      Attempts node openJwt (openJwt.encode node.config.connectorTokenSecret replayed)
        replayed.jti issuedWorld [(0, true), (151000, true)] ∧
      ¬ accepted [(0, true), (151000, true)] ≤ 1 :=
  ⟨issued_replayed, attempts_replayed, by decide⟩

end Callifornia.TokenReplay
