import TimeGANWebServer.Support.CString
import TimeGANWebServer.Support.Expiring

/-!
# The connection to Redis

`RedisManager` in `redis_manager.cpp`, with a server behind it that is a correct store for what
it executes.  A command may be answered, refused with an error, or lost: then there is no reply,
and the server has executed it or not.
-/

namespace TimeGANWebServer.Redis

open TimeGANWebServer.Support

/-! ## The server -/

/-- The commands the program sends. -/
inductive Command where
  | setex (token : List UInt8) (ttlSeconds : Int) (username : List UInt8)
  | get (token : List UInt8)
  | del (token : List UInt8)
  deriving DecidableEq, Repr

/-- `redisReply`, by its type. -/
inductive RedisReply where
  | status (str : List UInt8)
  | error (str : List UInt8)
  | integer (integer : Int)
  | nil
  | string (str : List UInt8)
  deriving DecidableEq, Repr

/-- What the server stores. -/
abbrev Store : Type := Expiring (List UInt8) (List UInt8)

/-- The key of a session. -/
def sessionKey (token : List UInt8) : List UInt8 :=
  ascii "session:" ++ token

theorem sessionKey_ne {left right : List UInt8} (differ : left ≠ right) :
    sessionKey left ≠ sessionKey right :=
  fun same => differ (List.append_cancel_left same)

/-- What the server does with a command. -/
def execute (store : Store) : Command → RedisReply × Store
  | .setex token ttlSeconds username =>
      if ttlSeconds ≤ 0 then
        (.error (ascii "ERR invalid expire time in 'setex' command"), store)
      else
        (.status (ascii "OK"), store.set (sessionKey token) ttlSeconds.toNat username)
  | .get token =>
      match store.get (sessionKey token) with
      | some username => (.string username, store)
      | none => (.nil, store)
  | .del token =>
      (.integer (if (store.get (sessionKey token)).isSome then 1 else 0),
        store.remove (sessionKey token))

/-- What becomes of a command on its way. -/
inductive Delivery where
  | answered
  | refused (message : List UInt8)
  | lost (executed : Bool)
  deriving DecidableEq, Repr

/-- How the connection behaves during a call: whether it can be made in front of the command,
if there is none, what becomes of the command, and whether it can be made again when no reply
has come. -/
structure Attempt where
  connects : Bool
  delivery : Delivery
  reconnects : Bool
  deriving DecidableEq, Repr

/-! ## The manager -/

/-- `RedisManager` and the server.  `connected` is `isConnected()`: `m_ctx` is not null.  No
call leaves a context with an error behind. -/
structure RedisManager where
  connected : Bool
  store : Store

/-- `redisCommand`; `none` is the null pointer. -/
def redisCommand (store : Store) (command : Command) : Delivery → Option RedisReply × Store
  | .answered => (some (execute store command).1, (execute store command).2)
  | .refused message => (some (.error message), store)
  | .lost executed => (none, if executed then (execute store command).2 else store)

namespace RedisManager

/-- What the three functions have in common: connect if there is no connection, send the
command, and connect again if there is no reply. -/
def send (manager : RedisManager) (attempt : Attempt) (command : Command) :
    Option RedisReply × RedisManager :=
  if manager.connected = false ∧ attempt.connects = false then
    (none, { manager with connected := false })
  else
    match redisCommand manager.store command attempt.delivery with
    | (none, store) => (none, { connected := attempt.reconnects, store := store })
    | (some reply, store) => (some reply, { connected := true, store := store })

/-- `RedisManager::setSession`. -/
def setSession (manager : RedisManager) (attempt : Attempt) (token username : List UInt8)
    (ttlSeconds : Int) : Bool × RedisManager :=
  let sent := manager.send attempt (.setex token ttlSeconds username)
  let ok := match sent.1 with
    | some (.status str) => strcasecmp str (ascii "OK")
    | _ => false
  (ok, sent.2)

/-- `RedisManager::getSession`, with the user name if it returns true. -/
def getSession (manager : RedisManager) (attempt : Attempt) (token : List UInt8) :
    Option (List UInt8) × RedisManager :=
  let sent := manager.send attempt (.get token)
  let found := match sent.1 with
    | some (.string str) => some str
    | _ => none
  (found, sent.2)

/-- `RedisManager::delSession`. -/
def delSession (manager : RedisManager) (attempt : Attempt) (token : List UInt8) :
    Bool × RedisManager :=
  let sent := manager.send attempt (.del token)
  let deleted := match sent.1 with
    | some (.integer integer) => decide (0 < integer)
    | _ => false
  (deleted, sent.2)

/-- The user a token is stored for. -/
def stored (manager : RedisManager) (token : List UInt8) : Option (List UInt8) :=
  manager.store.get (sessionKey token)

/-- Time passes on the server. -/
def pass (manager : RedisManager) (seconds : Nat) : RedisManager :=
  { manager with store := manager.store.pass seconds }

/-- The command of a call is executed by the server. -/
def Executes (manager : RedisManager) (attempt : Attempt) : Prop :=
  (manager.connected = true ∨ attempt.connects = true) ∧
    (attempt.delivery = .answered ∨ attempt.delivery = .lost true)

instance (manager : RedisManager) (attempt : Attempt) : Decidable (manager.Executes attempt) :=
  inferInstanceAs (Decidable (_ ∧ _))

/-! ## What a call does to the store -/

variable {manager : RedisManager} {attempt : Attempt}

/-- The store changes exactly if the command is executed. -/
theorem send_store (manager : RedisManager) (attempt : Attempt) (command : Command) :
    (manager.send attempt command).2.store =
      if manager.Executes attempt then (execute manager.store command).2 else manager.store := by
  obtain ⟨connects, delivery, reconnects⟩ := attempt
  obtain ⟨connected, store⟩ := manager
  cases connected <;> cases connects <;> rcases delivery with _ | message | executed <;>
    simp [send, Executes, redisCommand]

theorem setSession_store (manager : RedisManager) (attempt : Attempt)
    (token username : List UInt8) (ttlSeconds : Int) :
    (manager.setSession attempt token username ttlSeconds).2.store =
      if manager.Executes attempt ∧ 0 < ttlSeconds then
        manager.store.set (sessionKey token) ttlSeconds.toNat username
      else
        manager.store := by
  have sent := manager.send_store attempt (.setex token ttlSeconds username)
  by_cases positive : 0 < ttlSeconds
  · simp only [execute, if_neg (Int.not_le.mpr positive)] at sent
    simp only [positive, and_true]
    exact sent
  · simp only [execute, if_pos (Int.not_lt.mp positive), ite_self] at sent
    simp only [positive, and_false, if_false]
    exact sent

theorem getSession_store (manager : RedisManager) (attempt : Attempt) (token : List UInt8) :
    (manager.getSession attempt token).2.store = manager.store := by
  have reads : (execute manager.store (.get token)).2 = manager.store := by
    simp only [execute]
    split <;> rfl
  have sent := manager.send_store attempt (.get token)
  rw [reads, ite_self] at sent
  exact sent

theorem delSession_store (manager : RedisManager) (attempt : Attempt) (token : List UInt8) :
    (manager.delSession attempt token).2.store =
      if manager.Executes attempt then
        manager.store.remove (sessionKey token)
      else
        manager.store :=
  manager.send_store attempt (.del token)

/-- A reply is what the server answers, or an error. -/
theorem send_reply {command : Command} {reply : RedisReply}
    (sent : (manager.send attempt command).1 = some reply) :
    reply = (execute manager.store command).1 ∨ ∃ message, reply = .error message := by
  obtain ⟨connects, delivery, reconnects⟩ := attempt
  simp only [send] at sent
  split at sent
  · contradiction
  · cases delivery with
    | answered =>
        cases sent
        exact .inl rfl
    | refused message =>
        cases sent
        exact .inr ⟨message, rfl⟩
    | lost executed => contradiction

/-- A session that is found is stored. -/
theorem stored_of_getSession {token username : List UInt8}
    (found : (manager.getSession attempt token).1 = some username) :
    manager.stored token = some username := by
  simp only [getSession] at found
  split at found
  case _ str sent =>
      cases found
      rcases send_reply sent with answered | ⟨_, refused⟩
      · simp only [execute] at answered
        rw [stored]
        split at answered
        case _ other stored =>
            cases answered
            exact stored
        case _ => contradiction
      · contradiction
  case _ => contradiction

end RedisManager

end TimeGANWebServer.Redis
