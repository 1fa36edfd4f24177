import CdcPipeline.Model.Calls
import CdcPipeline.Model.KafkaConsumerBase

namespace CdcPipeline.Model

open Library Text

abbrev RedisProg := Prog RedisOp RedisAns Bytes

namespace RedisProg

def contextUsable : RedisProg Bool := Prog.call RedisOp.contextUsable
def redisConnect : RedisProg (Except Bytes Unit) := Prog.call RedisOp.redisConnect
def redisCommand (c : Command) : RedisProg (Option Reply) := Prog.call (RedisOp.command c)
def log (e : LogEvent) : RedisProg Unit := Prog.call (RedisOp.log e)

/-- `EnsureConnected`, told apart by the consumer's name and its log line. -/
def ensureConnected (name : Bytes) (connected : LogEvent) : RedisProg Unit := do
  if ← contextUsable then return ()
  else match ← redisConnect with
    | .ok () => log connected
    | .error err => Prog.raise (name ++ bytes " failed to connect to Redis: " ++ err)

/-- A null reply and an error reply are both thrown. -/
def checkReply (what : Bytes) : Option Reply → RedisProg Reply
  | none => .raise (what ++ bytes " failed: Null reply / connection error")
  | some (.error str) => .raise (what ++ bytes " failed: " ++ str)
  | some reply => .ret reply

end RedisProg

namespace RedisUpdater

open RedisProg Record

def ensureConnected : RedisProg Unit :=
  RedisProg.ensureConnected (bytes "RedisUpdater") .redisUpdaterConnected

def redisKey (orderId : Bytes) : Bytes := bytes "order:" ++ orderId

def ttl : Bytes := bytes "86400"

def delCommand (orderId : Bytes) (lsn : Int) : Command :=
  .eval .luaDel [redisKey orderId] [intText lsn, ttl]

def upsertCommand (orderId orderJsonStr : Bytes) (lsn : Int) : Command :=
  .eval .luaUpsert [redisKey orderId] [orderJsonStr, intText lsn, ttl]

def processDelete (record : Json) (key : Bytes) (offset : Nat) : RedisProg Unit :=
  match beforeData record with
  | none => return ()
  | some before => do
    let id ← Prog.ofExcept (orderId before key)
    if id = [] then return ()
    else
      ensureConnected
      let lsn := extractLsn record
      let reply ← redisCommand (delCommand id lsn)
      let _ ← checkReply (bytes "Redis delete") reply
      log (.redisDeleted id lsn offset)

def processUpsert (record row : Json) (key : Bytes) (offset : Nat) : RedisProg Unit := do
  let id ← Prog.ofExcept (orderId row key)
  if id = [] then log (.redisUpdaterSkipNoId offset)
  else
    let lsn := extractLsn record
    ensureConnected
    let orderJsonStr ← Prog.ofExcept row.dump
    let reply ← redisCommand (upsertCommand id orderJsonStr lsn)
    let reply ← checkReply (bytes "Redis upsert") reply
    if reply = .integer 0 then log (.redisStaleEventIgnored id lsn offset)
    else
      let status ← Prog.ofExcept (stringValue row (bytes "status") (bytes "UNKNOWN"))
      log (.redisUpdated id status lsn offset)

def processRecord (record : Json) (key : Bytes) (offset : Nat) : RedisProg Unit :=
  match orderData record with
  | some row => processUpsert record row key offset
  | none => processDelete record key offset

/-- The RedisUpdater as `main` builds it, for a given `json::parse`. -/
def consumer (topic : Bytes) (parse : Bytes → Except Bytes Json) :
    KafkaConsumerBase.Consumer RedisOp RedisAns :=
  ⟨.withDefaults (bytes "RedisUpdater") topic, parse, processRecord⟩

end RedisUpdater

end CdcPipeline.Model
