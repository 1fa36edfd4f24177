import CdcPipeline.Model.KafkaConsumerBase

namespace CdcPipeline.Model

open Library Text

/-- The documents Elasticsearch holds, by the URL they are put to. -/
abbrev Documents := Bytes → Option Bytes

namespace Documents

def empty : Documents := fun _ => none

/-- Neither request carries a version: whichever is applied last decides. -/
def apply : HttpRequest → Documents → Documents
  | .put url body, docs => Function.update docs url (some body)
  | .delete url, docs => Function.update docs url none

/-- The status of a request that was applied. -/
def status : HttpRequest → Documents → Int
  | .put url _, docs => if (docs url).isSome then 200 else 201
  | .delete url, docs => if (docs url).isSome then 200 else 404

end Documents

abbrev HttpProg := Prog HttpOp HttpAns Bytes

namespace EsIndexer

open Record

def request (r : HttpRequest) : HttpProg HttpResponse := Prog.call (HttpOp.request r)
def log (e : LogEvent) : HttpProg Unit := Prog.call (HttpOp.log e)

variable (esUrl : Bytes)

def docUrl (orderId : Bytes) : Bytes := esUrl ++ bytes "/orders/_doc/" ++ orderId

def succeeded (statusCode : Int) : Bool := 200 ≤ statusCode && statusCode < 300

def processDelete (record : Json) (key : Bytes) : HttpProg Unit :=
  match beforeData record with
  | none => return ()
  | some before => do
    let id ← Prog.ofExcept (orderId before key)
    if id = [] then return ()
    else
      let r ← request (.delete (docUrl esUrl id))
      if succeeded r.statusCode then log (.esDeleted id r.statusCode)
      else if r.statusCode ≠ 404 then
        Prog.raise (bytes "Elasticsearch delete failed: status " ++ intText r.statusCode ++
          bytes ", error: " ++ r.error)
      else return ()

def processIndex (row : Json) (key : Bytes) (offset : Nat) : HttpProg Unit := do
  let id ← Prog.ofExcept (orderId row key)
  if id = [] then log (.esIndexerSkipNoId offset)
  else
    let body ← Prog.ofExcept row.dump
    let r ← request (.put (docUrl esUrl id) body)
    if succeeded r.statusCode then log (.esIndexed id r.statusCode offset)
    else Prog.raise (bytes "Elasticsearch indexing failed: status " ++ intText r.statusCode ++
      bytes ", error: " ++ r.error ++ bytes ", response: " ++ r.text)

def processRecord (record : Json) (key : Bytes) (offset : Nat) : HttpProg Unit :=
  match orderData record with
  | some row => processIndex esUrl row key offset
  | none => processDelete esUrl record key

/-- The ESIndexer as `main` builds it, for a given `json::parse`. -/
def consumer (topic : Bytes) (parse : Bytes → Except Bytes Json) :
    KafkaConsumerBase.Consumer HttpOp HttpAns :=
  ⟨.withDefaults (bytes "ESIndexer") topic, parse, processRecord esUrl⟩

end EsIndexer

end CdcPipeline.Model
