import Callifornia.Signaling.Redis

/-! # Sessions at the connector

The connector reserves a nickname for a new session, keeps the session's hash alive,
and gives both up on request.
-/

namespace Callifornia.Connector

open Concurrency Store

/-- What the connector reads of its configuration here. -/
structure Config where
  sessionTtlSecs : ℕ

inductive RedisError
  | nicknameTaken
  | timeout
  | redis
  deriving DecidableEq

def RedisError.ofFailure : RedisFailure → RedisError
  | .timeout => .timeout
  | .redis => .redis

inductive HandlerError
  | unauthorized
  | nicknameTaken
  | redis
  | invalidPayload (message : String)
  deriving DecidableEq

def mapRedisError : RedisError → HandlerError
  | .nicknameTaken => .nicknameTaken
  | .timeout | .redis => .redis

/-- An operation on the store. -/
abbrev RedisCall := ExceptT RedisError Call

/-- A request handler. -/
abbrev HttpCall := ExceptT HandlerError Call

def command (command : Command) : RedisCall command.Reply := redisCommand .ofFailure command

/-! ## Nicknames -/

/-- Unicode white space. -/
def isWhitespace (char : Char) : Bool :=
  let code := char.toNat
  (9 ≤ code && code ≤ 13) || (0x2000 ≤ code && code ≤ 0x200A) ||
    code ∈ [0x20, 0x85, 0xA0, 0x1680, 0x2028, 0x2029, 0x202F, 0x205F, 0x3000]

/-- The text without the white space around it. -/
def trim (text : String) : String :=
  .ofList ((text.toList.dropWhile isWhitespace).reverse.dropWhile isWhitespace).reverse

/-- The payload's nickname has 3 to 32 letters, digits, `_` or `-`. -/
@[irreducible] def validateNickname (nickname : String) : Bool :=
  let trimmed := (trim nickname).toList
  decide (3 ≤ trimmed.length ∧ trimmed.length ≤ 32) &&
    trimmed.all fun char => char.isAlphanum || char == '_' || char == '-'

theorem trim_ne_empty {nickname : String} (valid : validateNickname nickname = true) :
    trim nickname ≠ "" := by
  intro empty
  simp only [validateNickname, Bool.and_eq_true, decide_eq_true_eq, empty] at valid
  exact absurd valid.1.1 (by decide)

/-! ## Operations on the store -/

structure SessionData where
  nickname : Nickname
  deriving DecidableEq

def reserveNickname (nickname : Nickname) (sessionId : SessionId) : RedisCall Unit := do
  let acquired ← command (.setNx (.nick nickname) sessionId none)
  if acquired then return () else throw .nicknameTaken

def nickOwnerGet (nickname : Nickname) : RedisCall (Option String) :=
  command (.get (.nick nickname))

def releaseNickLease (nickname : Nickname) (sessionId : SessionId) : RedisCall Unit := do
  let _ ← command (.compareAndDel (.nick nickname) sessionId)

def sessionCreate (sessionId : SessionId) (nickname : Nickname) (ttlSecs : ℕ) :
    RedisCall Unit := do
  command (.hset (.session sessionId) "nickname" nickname)
  command (.hset (.session sessionId) "room_id" "")
  let _ ← command (.expire sessionId ttlSecs)

def sessionDelete (sessionId : SessionId) : RedisCall Unit := do
  let _ ← command (.del (.session sessionId))

def sessionGet (sessionId : SessionId) : RedisCall (Option SessionData) := do
  let nickname ← command (.hget (.session sessionId) "nickname")
  return (nickname.filter (· ≠ "")).map SessionData.mk

def sessionRefreshTtl (sessionId : SessionId) (ttlSecs : ℕ) : RedisCall Bool :=
  command (.expire sessionId ttlSecs)

/-! ## Requests -/

/-- A Redis operation whose error is the handler's. -/
def redis {α : Type} (call : RedisCall α) : HttpCall α := ExceptT.adapt mapRedisError call

structure AuthResponse where
  nickname : Nickname
  sessionId : SessionId
  deriving DecidableEq

/-- Create the hash of a session; give its nickname back if that fails. -/
def createSession (config : Config) (nickname : Nickname) (sessionId : SessionId) :
    HttpCall AuthResponse := do
  match ← (sessionCreate sessionId nickname config.sessionTtlSecs).run with
  | .error error => do
      let _ ← (releaseNickLease nickname sessionId).run
      throw (mapRedisError error)
  | .ok () => return { nickname, sessionId }

def auth (config : Config) (nickname : String) : HttpCall AuthResponse := do
  if !validateNickname nickname then throw (.invalidPayload "Invalid auth request")
  else do
    let sessionId ← issue .newUuid
    redis (reserveNickname (trim nickname) sessionId)
    createSession config (trim nickname) sessionId

def logout (sessionId : SessionId) : HttpCall Unit := do
  match ← redis (sessionGet sessionId) with
  | none => return ()
  | some session => do
      let _ ← (sessionDelete sessionId).run
      let _ ← (releaseNickLease session.nickname sessionId).run

def sessionRenew (config : Config) (sessionId : SessionId) : HttpCall Unit := do
  match ← redis (sessionGet sessionId) with
  | none => throw .unauthorized
  | some session => do
      let owner ← redis (nickOwnerGet session.nickname)
      if owner ≠ some sessionId then throw .unauthorized
      else do
        let renewed ← redis (sessionRefreshTtl sessionId config.sessionTtlSecs)
        if !renewed then throw .unauthorized
        else return ()

end Callifornia.Connector
