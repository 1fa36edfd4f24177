import CdcPipeline.Model.ApiClients

namespace CdcPipeline.Model

open Library Text

/-- What a handler leaves in `res`; its content is always `application/json`. -/
structure Response where
  status : Nat
  body : Bytes
deriving DecidableEq

namespace ApiServer

open ApiProg

variable (lib : Conversions)

def internalServerError : Response := ⟨500, bytes "\x7b\"error\": \"Internal Server Error\"\x7d"⟩

def invalidPayload : Response := ⟨400, bytes "\x7b\"error\": \"Invalid JSON payload\"\x7d"⟩

def orderNotFound : Response := ⟨404, bytes "\x7b\"error\": \"Order not found\"\x7d"⟩

/-- The handler's outer `try`. -/
def guarded (p : ApiProg Response) : ApiProg Response := do
  match ← Prog.attempt p with
  | .ok response => return response
  | .error exn =>
    log (.apiServerError exn.what)
    return internalServerError

/-- `response["source"] = source` and 200. -/
def found (order : Json) (source : Bytes) : ApiProg Response := do
  let response ← ofJson (order.assign (bytes "source") (.str source))
  let body ← ofJson response.dump
  return ⟨200, body⟩

/-- `get<std::string>()` -/
def getString : Json → Except Bytes Bytes
  | .str s => .ok s
  | j => .error
    (bytes "[json.exception.type_error.302] type must be string, but is " ++ j.typeName)

/-- `get<double>()` takes these, and only these. -/
def getNumber : Json → Except Bytes Json
  | .int n => .ok (.int n)
  | .float x => .ok (.float x)
  | j => .error
    (bytes "[json.exception.type_error.302] type must be number, but is " ++ j.typeName)

def createOrder (request : Bytes) : ApiProg Response := do
  let j ← ofJson (lib.parse request)
  let userId ← ofJson (j.at_ (bytes "user_id") >>= getString)
  let totalAmount ← ofJson (j.at_ (bytes "total_amount") >>= getNumber)
  let items ← ofJson (j.at_ (bytes "items"))
  let orderId ← DatabaseClient.createOrder lib userId totalAmount items
  log (.apiOrderCreated orderId)
  let body ← ofJson (Json.obj [(bytes "id", .str orderId),
    (bytes "status", .str (bytes "CREATED"))]).dump
  return ⟨201, body⟩

/-- `POST /api/v1/orders` -/
def postOrder (request : Bytes) : ApiProg Response := do
  match ← Prog.attempt (createOrder lib request) with
  | .ok response => return response
  | .error (.json what) =>
    log (.apiBadRequest what)
    return invalidPayload
  | .error (.other what) =>
    log (.apiServerError what)
    return internalServerError

def fromCache (orderId : Bytes) : ApiProg (Option Response) := do
  match ← RedisClient.get (bytes "order:" ++ orderId) with
  | some cacheResult =>
    log (.apiCacheHit orderId)
    let order ← ofJson (lib.parse cacheResult)
    let response ← found order (bytes "redis")
    return some response
  | none =>
    log (.apiCacheMiss orderId)
    return none

def fromPostgres (orderId : Bytes) : ApiProg Response := do
  match ← DatabaseClient.getOrderById lib orderId with
  | some order =>
    log (.apiDbHit orderId)
    found order (bytes "postgres")
  | none => return orderNotFound

/-- `GET /api/v1/orders/:id` -/
def getOrder (orderId : Bytes) : ApiProg Response :=
  guarded do
    match ← Prog.attempt (fromCache lib orderId) with
    | .ok (some response) => return response
    | .ok none => fromPostgres lib orderId
    | .error exn =>
      log (.apiRedisFallback exn.what orderId)
      fromPostgres lib orderId

end ApiServer

/-- Redis and Postgres as one request finds them. -/
structure Backends where
  reply : Bytes → Option Reply
  rows : Bytes → Except Bytes (List SqlRow)
  draws : Draws
  committed : Except Bytes Unit

/-- What a request leaves: whether the Redis context is still set, and the statements
that Postgres was given, the newest first. -/
structure Served where
  context : Bool
  statements : List Bytes

def Backends.answer (E : Backends) : Handler ApiOp ApiAns Served
  | .contextUsable, s => (s.context, s)
  | .redisGet key, s => (E.reply key, s)
  | .redisFree, s => ((), { s with context := false })
  | .draw, s => (E.draws, s)
  | .exec sql, s => (E.rows sql, { s with statements := sql :: s.statements })
  | .commit, s => (E.committed, s)
  | .log _, s => ((), s)

end CdcPipeline.Model
