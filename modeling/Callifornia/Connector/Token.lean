import Callifornia.Signaling.Websocket

/-! # The token the connector issues

The connector and the signaling nodes share the secret and the form of the claims.
-/

namespace Callifornia.Connector

open Signaling

def issueToken (jwt : Jwt) (secret : String) (ttlSecs : ℕ) (sessionId : SessionId)
    (nickname : Nickname) (signalingInstanceId : NodeId) (intent : String)
    (roomId : Option RoomId) : Call String := do
  let now ← unixNow
  let jti ← issue .newUuid
  let iat := now.toNat
  return jwt.encode secret
    { jti, sessionId, nickname, signalingInstanceId, intent, roomId, iat, exp := iat + ttlSecs }

end Callifornia.Connector
