import NebulaIM.Backend.Dao
import NebulaIM.Foundation.Interleaving

/-!
# The world of the backend services

Handlers are programs over the calls below.  Each thread of control is one
client of the database: `exec` runs a statement on the connection of its own
transaction, `query` on a pooled connection of its own.  Redis and Kafka answer
through `Choice`, so a command may fail, or take effect although its reply is
lost.
-/

namespace NebulaIM.Backend

open Foundation Foundation.Store
open Foundation.Wire (Bytes)
open Protocol (TraceId)

inductive Op where
  | begin
  | commit
  | rollback
  | exec (stmt : Stmt)
  | query (stmt : Stmt)
  | nextId
  | nowMs
  | generateTraceId
  | redisGet (key : Bytes)
  | redisSetEx (key : Bytes) (ttlSeconds : Int) (value : Bytes)
  /-- `eventId` is not sent: it records for which event the call is made. -/
  | produce (eventId : UInt64) (topic key payload : Bytes)

@[reducible] def Op.Res : Op → Type
  | .begin | .commit => Bool
  | .rollback => Unit
  | .exec stmt | .query stmt => stmt.Res
  | .nextId => UInt64
  | .nowMs => Int64
  | .generateTraceId => TraceId
  | .redisGet _ => Option Bytes
  | .redisSetEx _ _ _ => Bool
  | .produce _ _ _ _ => Bool

abbrev Service (α : Type) := Prog Op Op.Res α

/-! ## Calls -/

def call (op : Op) : Service op.Res := Prog.perform op

def begin : Service Bool := call .begin

def commit : Service Bool := call .commit

def rollback : Service Unit := call .rollback

def exec (stmt : Stmt) : Service stmt.Res := call (.exec stmt)

def query (stmt : Stmt) : Service stmt.Res := call (.query stmt)

def nextId : Service UInt64 := call .nextId

def nowMs : Service Int64 := call .nowMs

def generateTraceId : Service TraceId := call .generateTraceId

def redisGet (key : Bytes) : Service (Option Bytes) := call (.redisGet key)

def redisSetEx (key : Bytes) (ttlSeconds : Int) (value : Bytes) : Service Bool :=
  call (.redisSetEx key ttlSeconds value)

def produce (eventId : UInt64) (topic key payload : Bytes) : Service Bool :=
  call (.produce eventId topic key payload)

/-- A block with a `MySqlTransaction`, answered by `unavailable` without a
connection or a `BEGIN`; the final rollback is the destructor, which does nothing
after a commit. -/
def transaction {α : Type} (unavailable : α) (body : Service α) : Service α := do
  if !(← begin) then return unavailable
  let result ← body
  rollback
  return result

/-! ## The world -/

/-- A record that Kafka acknowledged. -/
structure Produced where
  eventId : UInt64
  topic : Bytes
  key : Bytes
  payload : Bytes
  deriving DecidableEq, Repr

structure World where
  sql : Engine dialect
  redis : Table Bytes Bytes := ∅
  produced : List Produced := []
  /-- The generated trace ids with the threads they were generated for. -/
  tokens : List (Nat × TraceId) := []

namespace World

abbrev db (w : World) : Db := w.sql.db

abbrev log (w : World) : List (Nat × List Write) := w.sql.log

def exec (w : World) (client : Nat) : (op : Op) → Choice → World × op.Res
  | .begin, choice =>
    let (sql, ok) := w.sql.begin client choice.fault
    ({ w with sql := sql }, ok)
  | .commit, choice =>
    let (sql, ok) := w.sql.commit client choice.fault
    ({ w with sql := sql }, ok)
  | .rollback, _ => ({ w with sql := w.sql.rollback client }, ())
  | .exec stmt, choice =>
    let (sql, result) := w.sql.statement client (stmt.plan choice) stmt.failed choice.fault
    ({ w with sql := sql }, result)
  | .query stmt, choice =>
    let (sql, result) := w.sql.autocommit client (stmt.plan choice) stmt.failed choice.fault
    ({ w with sql := sql }, result)
  | .nextId, choice => (w, choice.id)
  | .nowMs, choice => (w, choice.clock)
  | .generateTraceId, choice =>
    ({ w with tokens := (client, choice.token) :: w.tokens }, choice.token)
  | .redisGet key, choice => (w, if choice.fault = .none then w.redis.lookup key else none)
  | .redisSetEx key _ value, choice =>
    match choice.fault with
    | .refused => (w, false)
    | .none => ({ w with redis := w.redis.insert key value }, true)
    | .lost => ({ w with redis := w.redis.insert key value }, false)
  | .produce eventId topic key payload, choice =>
    if choice.fault = .none then
      ({ w with produced := ⟨eventId, topic, key, payload⟩ :: w.produced }, true)
    else (w, false)

end World

/-- What happens to the world besides the calls of the modelled handlers. -/
inductive Env where
  /-- The server drops a connection and rolls its transaction back. -/
  | disconnect (client : Nat)
  /-- An entry expires, is evicted or is overwritten. -/
  | redis (key : Bytes) (value : Option Bytes)
  /-- Users register, friendships begin and end. -/
  | accounts (users : List UInt64) (friendships : List (UInt64 × UInt64))

def World.env (w : World) : Env → World
  | .disconnect client => { w with sql := w.sql.close client }
  | .redis key none => { w with redis := w.redis.erase key }
  | .redis key (some value) => { w with redis := w.redis.insert key value }
  | .accounts users friendships =>
    { w with
      sql := { w.sql with
        db := { w.sql.db with users := users, friendships := friendships } } }

end NebulaIM.Backend
