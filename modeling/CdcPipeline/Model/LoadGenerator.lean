import CdcPipeline.Model.LogCalls
import CdcPipeline.Model.OrderRoutes

namespace CdcPipeline.Model

open Library Text

/-- The calls of a worker thread of the load generator. The clock counts nanoseconds; `gen` is
a draw of its `mt19937`, and the distributions over it have the range they were given. -/
inductive WorkerOp where
  | loadRunning
  | steadyClock
  | patchChance
  | statusPick
  | gen
  | amount
  | draw
  | send (request : Request)
  | receive (connection : Nat)
  | sleepFor (ns : Int)
  | log (c : ApiCall)

@[reducible] def WorkerAns : WorkerOp → Type
  | .loadRunning => Bool
  | .steadyClock => Int
  | .patchChance => Fin 5
  | .statusPick => Fin 3
  | .gen => Nat
  | .amount => FloatText
  | .draw => Draws
  | .send _ => Nat
  | .receive _ => Option Response
  | _ => Unit

abbrev WorkerProg := Prog WorkerOp WorkerAns Exn

namespace LoadGenerator

def call (op : WorkerOp) : WorkerProg (WorkerAns op) := Prog.call op

/-- What the constructor is given, apart from where the server is. -/
structure Config where
  reqPerSec : Int
  numThreads : Int

namespace Config

/-- A thread's share of the requests, at least one a second; the division is that of C++. -/
def threadRps (cfg : Config) : Int := max 1 (cfg.reqPerSec.tdiv cfg.numThreads)

/-- `std::chrono::microseconds(1'000'000 / thread_rps)`, in nanoseconds. -/
def sleepDuration (cfg : Config) : Int := Int.tdiv 1000000 cfg.threadRps * 1000

end Config

def statusCycle : List Bytes := ["PROCESSING", "SHIPPED", "DELIVERED"].map bytes

/-- `created_ids` with a new id at its end; the oldest of 512 makes room. -/
def remember (createdIds : List Bytes) (id : Bytes) : List Bytes :=
  (if 512 ≤ createdIds.length then createdIds.drop 1 else createdIds) ++ [id]

def patchRequest (orderId newStatus : Bytes) : Except Bytes Request := do
  let body ← (Json.obj [(bytes "status", .str newStatus)]).dump
  return ⟨.patch, bytes "/api/v1/orders/" ++ orderId ++ bytes "/status", body⟩

/-- The payload of an order of one item, its members in the order `json` keeps them. -/
def payload (userId : Bytes) (amount : FloatText) (product qty : Nat) : Json :=
  .obj [(bytes "items", .arr [.obj [
      (bytes "product_id", .str (bytes "prod_" ++ natText (product % 20 + 1))),
      (bytes "qty", .int (qty % 5 + 1 : Nat))]]),
    (bytes "total_amount", .float amount),
    (bytes "user_id", .str userId)]

def postRequest (userId : Bytes) (amount : FloatText) (product qty : Nat) :
    Except Bytes Request := do
  let body ← (payload userId amount product qty).dump
  return ⟨.post, bytes "/api/v1/orders", body⟩

variable (lib : Conversions)

/-- The id in the body of a 201; whatever goes wrong in reading it is swallowed. -/
def newId (body : Bytes) : Option Bytes :=
  match lib.parse body with
  | .ok resp => match resp.member (bytes "id") with
    | some (.str id) => some id
    | _ => none
  | .error _ => none

/-- A request and its response, with the time it took in milliseconds. -/
def exchange (request : Request) : WorkerProg (Option Response × Int) := do
  let t0 ← call .steadyClock
  let connection ← call (.send request)
  let res ← call (.receive connection)
  let now ← call .steadyClock
  return (res, (now - t0).tdiv 1000000)

/-- `res ? res->status : 0` -/
def statusCode (res : Option Response) : Int := res.elim 0 (fun r => (r.status : Int))

variable (threadId : Int)

def patchOrder (createdIds : List Bytes) : WorkerProg Unit := do
  let index ← call .gen
  let orderId := createdIds.getD (index % createdIds.length) []
  let pick ← call .statusPick
  let newStatus := statusCycle.getD pick []
  let request ← Prog.ofExcept ((patchRequest orderId newStatus).mapError .json)
  let (res, latencyMs) ← exchange request
  if statusCode res = 200 ∨ statusCode res = 204 then
    call (.log (.patchSent threadId orderId newStatus (statusCode res) latencyMs))
  else call (.log (.patchFailed threadId (statusCode res) latencyMs))

/-- What `created_ids` is behind the response to a `POST`. -/
def created (createdIds : List Bytes) (res : Option Response) : List Bytes :=
  match res with
  | some r => if r.status = 201 then ((newId lib r.body).map (remember createdIds)).getD createdIds
    else createdIds
  | none => createdIds

def postOrder (createdIds : List Bytes) : WorkerProg (List Bytes) := do
  let product ← call .gen
  let qty ← call .gen
  let draws ← call .draw
  let amount ← call .amount
  let request ← Prog.ofExcept
    ((postRequest (generateUuid draws) amount product qty).mapError .json)
  let (res, latencyMs) ← exchange request
  if statusCode res = 201 then
    call (.log (.postSent threadId (statusCode res) latencyMs))
  else call (.log (.postFailed threadId (statusCode res) latencyMs))
  return created lib createdIds res

/-- `!created_ids.empty() && (patch_chance(gen) == 0)`, which draws only where it has to. -/
def doPatch (createdIds : List Bytes) : WorkerProg Bool := do
  if createdIds = [] then return false
  else
    let chance ← call .patchChance
    return decide (chance = 0)

/-- The request of one tick. -/
def fire (createdIds : List Bytes) : WorkerProg (List Bytes) := do
  if ← doPatch createdIds then
    patchOrder threadId createdIds
    return createdIds
  else postOrder lib threadId createdIds

/-- The rest of the tick is slept through. -/
def pace (cfg : Config) (tickStart : Int) : WorkerProg Unit := do
  let now ← call .steadyClock
  if now - tickStart < cfg.sleepDuration then
    call (.sleepFor (cfg.sleepDuration - (now - tickStart)))

/-- One pass through the loop of `RunWorker`; none when it has ended. -/
def tick (cfg : Config) (createdIds : List Bytes) : WorkerProg (Option (List Bytes)) := do
  if ← call .loadRunning then
    let tickStart ← call .steadyClock
    let createdIds ← fire lib threadId createdIds
    pace cfg tickStart
    return some createdIds
  else return none

end LoadGenerator

end CdcPipeline.Model
