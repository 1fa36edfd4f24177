import CdcPipeline.Model.ApiServer

namespace CdcPipeline.Model

open Library Text

inductive Method where
  | get | head | post | patch | other
deriving DecidableEq

/-- A request as the server has parsed it, its path decoded. -/
structure Request where
  method : Method
  path : Bytes
  body : Bytes
deriving DecidableEq

/-- A request and the connection its response goes to. -/
structure Incoming where
  connection : Nat
  request : Request
deriving DecidableEq

/-- What a handler is called with. -/
inductive Route where
  | createOrder (body : Bytes)
  | updateStatus (orderId body : Bytes)
  | getOrder (orderId : Bytes)
deriving DecidableEq

namespace Request

def ordersPath : Bytes := bytes "/api/v1/orders"

/-- All of a text is matched by `[^/]+`. -/
def isSegment (s : Bytes) : Bool := !s.isEmpty && !s.contains 47

/-- What is left of a path behind `/api/v1/orders/`. -/
def belowOrders (path : Bytes) : Option Bytes :=
  if (ordersPath ++ [47]).isPrefixOf path then some (path.drop (ordersPath ++ [47]).length)
  else none

/-- `/api/v1/orders/([^/]+)` -/
def matchOrder (path : Bytes) : Option Bytes := (belowOrders path).filter isSegment

/-- `/api/v1/orders/([^/]+)/status` -/
def matchStatus (path : Bytes) : Option Bytes :=
  ((belowOrders path).bind fun rest =>
    if (bytes "/status").isSuffixOf rest then
      some (rest.take (rest.length - (bytes "/status").length))
    else none).filter isSegment

/-- `SetupRoutes`, as the server looks a request up; a `HEAD` goes to the handlers of `GET`. -/
def route (r : Request) : Option Route :=
  match r.method with
  | .post => if r.path = ordersPath then some (.createOrder r.body) else none
  | .patch => (matchStatus r.path).map (.updateStatus · r.body)
  | .get | .head => (matchOrder r.path).map .getOrder
  | .other => none

end Request

/-- The lines that a change of status logs. -/
inductive UpdateLog where
  | orderStatusUpdatedDb (orderId newStatus : Bytes)
  | dbUpdateFailed (orderId error : Bytes)
  | apiOrderStatusUpdated (orderId newStatus : Bytes)

/-- The calls of a server thread around those of the POST and GET handlers. `execParams` names
what libpq is given, each parameter up to its first NUL, and answers how many rows it affected. -/
inductive ServerOp where
  | accept
  | api (op : ApiOp)
  | execParams (sql : Bytes) (params : List Bytes)
  | log (e : UpdateLog)
  | respond (connection : Nat) (response : Response)

@[reducible] def ServerAns : ServerOp → Type
  | .accept => Incoming
  | .api op => ApiAns op
  | .execParams _ _ => Except Bytes Nat
  | .log _ => Unit
  | .respond _ _ => Unit

abbrev ServerProg := Prog ServerOp ServerAns Exn

namespace ServerProg

def call (op : ServerOp) : ServerProg (ServerAns op) := Prog.call op

def log (e : UpdateLog) : ServerProg Unit := Prog.call (ServerOp.log e)

/-- A part of a handler that needs no more than these calls. -/
def api {α : Type} (p : ApiProg α) : ServerProg α := p.embed .api (fun _ a => a)

/-- `catch (const std::exception& e) { log; throw; }` -/
def logged {α : Type} (p : ServerProg α) (e : Bytes → UpdateLog) : ServerProg α := do
  match ← Prog.attempt p with
  | .ok a => return a
  | .error exn =>
    log (e exn.what)
    Prog.raise exn

end ServerProg

open ServerProg ApiProg ApiServer

namespace DatabaseClient

def updateStatusSql : Bytes := bytes "UPDATE orders SET status = $1 WHERE id = $2"

def updateOrderStatus (orderId newStatus : Bytes) : ServerProg Bool :=
  let update : ServerProg Bool := do
    let r ← ServerProg.call (.execParams updateStatusSql [cString newStatus, cString orderId])
    let affectedRows ← api (ofPqxx r)
    let r ← ServerProg.call (.api .commit)
    api (ofPqxx r)
    if 0 < affectedRows then
      ServerProg.log (.orderStatusUpdatedDb orderId newStatus)
      return true
    else return false
  ServerProg.logged update (.dbUpdateFailed orderId)

end DatabaseClient

namespace ApiServer

variable (lib : Conversions)

def statusUpdated : Response := ⟨200, bytes "\x7b\"updated\": true\x7d"⟩

def updateStatus (orderId request : Bytes) : ServerProg Response := do
  let j ← api (ofJson (lib.parse request))
  let newStatus ← api (ofJson (j.at_ (bytes "status") >>= getString))
  if ← DatabaseClient.updateOrderStatus orderId newStatus then
    ServerProg.log (.apiOrderStatusUpdated orderId newStatus)
    return statusUpdated
  else return orderNotFound

/-- `PATCH /api/v1/orders/:id/status` -/
def patchStatus (orderId request : Bytes) : ServerProg Response := do
  match ← Prog.attempt (updateStatus lib orderId request) with
  | .ok response => return response
  | .error (.json what) =>
    api (ApiProg.log (.apiBadRequest what))
    return invalidPayload
  | .error (.other what) =>
    api (ApiProg.log (.apiServerError what))
    return internalServerError

/-- The response to a request that no route takes. -/
def notRouted : Response := ⟨404, []⟩

def handle (request : Request) : ServerProg Response :=
  match request.route with
  | some (.createOrder body) => api (postOrder lib body)
  | some (.updateStatus orderId body) => patchStatus lib orderId body
  | some (.getOrder orderId) => api (getOrder lib orderId)
  | none => return notRouted

def serve : ServerProg Unit := do
  let incoming ← ServerProg.call .accept
  let response ← handle lib incoming.request
  ServerProg.call (.respond incoming.connection response)

end ApiServer

end CdcPipeline.Model
