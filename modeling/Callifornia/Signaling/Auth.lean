import Callifornia.Signaling.State

/-! # Connector tokens

The connector signs the claims of a session; the signaling node checks the
signature, the expiry and the node the token was issued for. Signing itself is a
parameter: what a secret encodes, the same secret decodes.
-/

namespace Callifornia.Signaling

structure ConnectorClaims where
  jti : String
  sessionId : SessionId
  nickname : Nickname
  signalingInstanceId : NodeId
  intent : String
  roomId : Option RoomId
  iat : ℕ
  exp : ℕ
  deriving DecidableEq

/-- The token library: the claims a token carries under a secret, when its
signature and its format are right. -/
structure Jwt where
  encode : String → ConnectorClaims → String
  decode : String → String → Option ConnectorClaims
  decode_encode : ∀ secret claims, decode secret (encode secret claims) = some claims

/-- Seconds for which the library still accepts a token after its expiry. -/
def Jwt.leeway : ℕ := 60

inductive TokenError
  | invalid
  | wrongInstance
  deriving DecidableEq

def validateConnectorToken (jwt : Jwt) (token secret : String) (expectedInstanceId : NodeId)
    (now : ℤ) : Except TokenError ConnectorClaims :=
  match jwt.decode secret token with
  | none => .error .invalid
  | some claims =>
      if (claims.exp + Jwt.leeway : ℕ) < now then .error .invalid
      else if claims.signalingInstanceId ≠ expectedInstanceId then .error .wrongInstance
      else .ok claims

end Callifornia.Signaling
