import CdcPipeline.Model.RedisUpdater

namespace CdcPipeline.Model.Notifier

open Library Text Record RedisProg

def ensureConnected : RedisProg Unit :=
  RedisProg.ensureConnected (bytes "Notifier") .notifierRedisConnected

/-- The statuses a customer is written to about. -/
def notifies (status : Bytes) : Bool := status = bytes "SHIPPED" || status = bytes "DELIVERED"

def idempotencyKey (orderId status : Bytes) : Bytes :=
  bytes "email_sent:" ++ orderId ++ bytes ":" ++ status

/-- `SET key 1 EX 86400 NX`. -/
def claimCommand (orderId status : Bytes) : Command :=
  .setNx (idempotencyKey orderId status) (bytes "1") (bytes "86400")

def customerId (row : Json) : Except Bytes Bytes :=
  match row.nonNull (bytes "user_id") with
  | some v => textOf v
  | none => match row.nonNull (bytes "customer_id") with
    | some v => textOf v
    | none => .ok (bytes "guest")

def notify (orderId status customerId : Bytes) (offset : Nat) : RedisProg Unit := do
  ensureConnected
  let reply ← redisCommand (claimCommand orderId status)
  let reply ← checkReply (bytes "Notifier Redis command") reply
  if reply = .status (bytes "OK") then
    log (.emailNotificationSent customerId orderId status offset)
  else log (.emailNotificationSkippedDuplicate orderId status offset)

def processRow (row : Json) (key : Bytes) (offset : Nat) : RedisProg Unit := do
  let id ← Prog.ofExcept (orderId row key)
  if id = [] then return ()
  else
    let status ← Prog.ofExcept (stringValue row (bytes "status") [])
    let customer ← Prog.ofExcept (customerId row)
    if notifies status then notify id status customer offset else return ()

def processRecord (record : Json) (key : Bytes) (offset : Nat) : RedisProg Unit :=
  match orderData record with
  | some row => processRow row key offset
  | none => return ()

/-- The Notifier as `main` builds it, for a given `json::parse`. -/
def consumer (topic : Bytes) (parse : Bytes → Except Bytes Json) :
    KafkaConsumerBase.Consumer RedisOp RedisAns :=
  ⟨.withDefaults (bytes "Notifier") topic, parse, processRecord⟩

end CdcPipeline.Model.Notifier
