import CdcPipeline.Library.Program
import CdcPipeline.Library.Json
import CdcPipeline.Model.Redis

namespace CdcPipeline.Model

open Library Text

/-- The lines the API logs, with the values they interpolate. -/
inductive ApiLog where
  | orderCreatedDb (orderId : Bytes)
  | dbInsertFailed (error : Bytes)
  | dbReadFailed (error : Bytes)
  | apiOrderCreated (orderId : Bytes)
  | apiBadRequest (error : Bytes)
  | apiServerError (error : Bytes)
  | apiCacheHit (orderId : Bytes)
  | apiCacheMiss (orderId : Bytes)
  | apiRedisFallback (error orderId : Bytes)
  | apiDbHit (orderId : Bytes)

/-- A row of a `pqxx::result`, by column; a null is `none`. -/
abbrev SqlRow := List (Option Bytes)

/-- What the generator behind `generate_uuid` draws: from 0 to 15, and once from 8 to 11. -/
structure Draws where
  dis : Nat → Fin 16
  dis2 : Fin 4

def generateUuid (draws : Draws) : Bytes :=
  let hex (i n : Nat) : Bytes := (List.range' i n).map fun j => Json.hexLower (draws.dis j)
  hex 0 8 ++ bytes "-" ++ hex 8 4 ++ bytes "-4" ++ hex 12 3 ++ bytes "-" ++
    [Json.hexLower (8 + draws.dis2)] ++ hex 15 3 ++ bytes "-" ++ hex 18 12

/-- The calls the API makes. `contextUsable` asks whether `context_` is set, and `redisFree`
clears it; `exec` is what libpq is given, which ends at its first NUL. -/
inductive ApiOp where
  | contextUsable
  | redisGet (key : Bytes)
  | redisFree
  | draw
  | exec (sql : Bytes)
  | commit
  | log (e : ApiLog)

@[reducible] def ApiAns : ApiOp → Type
  | .contextUsable => Bool
  | .redisGet _ => Option Reply
  | .redisFree => Unit
  | .draw => Draws
  | .exec _ => Except Bytes (List SqlRow)
  | .commit => Except Bytes Unit
  | .log _ => Unit

/-- The libraries' conversions: `json::parse`, libpqxx's `as<double>` and its complaint
about a null, and a JSON number taken as a double and formatted by fmt. -/
structure Conversions where
  parse : Bytes → Except Bytes Json
  asDouble : Bytes → Except Bytes FloatText
  nullError : Bytes
  formatDouble : Json → Decimal

/-- What is thrown: a `nlohmann::json::exception`, or any other `std::exception`. -/
inductive Exn where
  | json (what : Bytes)
  | other (what : Bytes)

def Exn.what : Exn → Bytes
  | .json what | .other what => what

abbrev ApiProg := Prog ApiOp ApiAns Exn

namespace ApiProg

def ofJson {α : Type} (r : Except Bytes α) : ApiProg α := Prog.ofExcept (r.mapError .json)

def ofPqxx {α : Type} (r : Except Bytes α) : ApiProg α := Prog.ofExcept (r.mapError .other)

def call (op : ApiOp) : ApiProg (ApiAns op) := Prog.call op

def log (e : ApiLog) : ApiProg Unit := Prog.call (ApiOp.log e)

/-- `catch (const std::exception& e) { log; throw; }` -/
def logged {α : Type} (p : ApiProg α) (e : Bytes → ApiLog) : ApiProg α := do
  match ← Prog.attempt p with
  | .ok a => return a
  | .error exn =>
    log (e exn.what)
    Prog.raise exn

end ApiProg

open ApiProg

namespace RedisClient

def get (key : Bytes) : ApiProg (Option Bytes) := do
  if ← call .contextUsable then
    match ← call (.redisGet (cString key)) with
    | none =>
      call .redisFree
      Prog.raise (.other (bytes "Redis command failed or timed out"))
    | some .nil => return none
    | some (.string str) => return some (cString str)
    | some _ => Prog.raise (.other (bytes "Unexpected Redis reply type"))
  else Prog.raise (.other (bytes "Redis context is null"))

end RedisClient

namespace DatabaseClient

def insertOrder (orderId userId totalAmount items : Bytes) : Bytes :=
  bytes "INSERT INTO orders (id, user_id, total_amount, status, items_jsonb) VALUES ('" ++
    orderId ++ bytes "', '" ++ userId ++ bytes "', " ++ totalAmount ++ bytes ", 'CREATED', '" ++
    items ++ bytes "')"

def selectOrder (orderId : Bytes) : Bytes :=
  bytes "SELECT id, user_id, total_amount, status, items_jsonb FROM orders WHERE id = '" ++
    orderId ++ bytes "'"

def exec (sql : Bytes) : ApiProg (List SqlRow) := do
  let r ← call (.exec (cString sql))
  ofPqxx r

variable (lib : Conversions)

def createOrder (userId : Bytes) (totalAmount items : Json) : ApiProg Bytes := do
  let draws ← call .draw
  let orderId := generateUuid draws
  let insert : ApiProg Bytes := do
    let itemsStr ← ofJson items.dump
    let _ ← exec (insertOrder orderId userId (lib.formatDouble totalAmount).text itemsStr)
    let r ← call .commit
    ofPqxx r
    log (.orderCreatedDb orderId)
    return orderId
  insert.logged .dbInsertFailed

/-- `as<std::string>()` -/
def asString (row : SqlRow) (column : Nat) : Except Bytes Bytes :=
  match row.getD column none with
  | some s => .ok s
  | none => .error lib.nullError

/-- The members in the order `json` keeps them. -/
def orderJson (row : SqlRow) : ApiProg Json := do
  let id ← ofPqxx (asString lib row 0)
  let userId ← ofPqxx (asString lib row 1)
  let totalAmount ← ofPqxx (asString lib row 2 >>= lib.asDouble)
  let status ← ofPqxx (asString lib row 3)
  let items ← ofPqxx (asString lib row 4)
  let items ← ofJson (lib.parse items)
  return .obj [(bytes "id", .str id),
    (bytes "items_jsonb", items),
    (bytes "status", .str status),
    (bytes "total_amount", .float totalAmount),
    (bytes "user_id", .str userId)]

def getOrderById (orderId : Bytes) : ApiProg (Option Json) :=
  let read : ApiProg (Option Json) := do
    match ← exec (selectOrder orderId) with
    | [] => return none
    | row :: _ =>
      let order ← orderJson lib row
      return some order
  read.logged .dbReadFailed

end DatabaseClient

end CdcPipeline.Model
