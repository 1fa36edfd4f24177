import CdcPipeline.Model.LogCalls
import CdcPipeline.Model.Logstash

namespace CdcPipeline.Model.Dashboard

open Library Text Logstash

/-- A line of either process: the one `Logger::Init` writes itself, or a later call. -/
inductive Line where
  | init (s : Service)
  | call (c : Call)

namespace Line

/-- The `event` member of the message; the message of the API server's first line is a string. -/
def name : Line → Option Bytes
  | .init .orderApi => none
  | .init .cdcConsumers => some (bytes "logger_initialized")
  | .call c => some c.line.event

/-- The event that reaches the routing, when the line is well formed. -/
def event (at_ : Moment) : Line → Event
  | .init .orderApi =>
    Event.empty.setAll (header at_ .info .orderApi ++
      [(bytes "message", .str (bytes "Logger initialized successfully"))])
  | .init .cdcConsumers =>
    Event.empty.setAll (header at_ .info .cdcConsumers ++
      [(bytes "event", .str (bytes "logger_initialized")),
        (bytes "service", .str Service.cdcConsumers.name)])
  | .call c => Event.empty.setAll (c.members at_)

end Line

/-- A line, when it was written, and the day that names its index. -/
structure Logged where
  moment : Moment
  day : Bytes
  line : Line

/-- A document of one of the daily indices. -/
structure Stored where
  index : Bytes
  fields : Event

/-- What Logstash writes for a line. -/
def Logged.store (l : Logged) : Stored :=
  ⟨Logstash.index (logType (l.line.event l.moment)) l.day, l.line.event l.moment⟩

structure DataView where
  id : Bytes
  title : Bytes

/-- The views that `setup_kibana.py` creates. -/
def dataViews : List DataView :=
  [⟨bytes "cdc-api-logs", bytes "cdc-api-logs-*"⟩,
    ⟨bytes "cdc-consumer-logs", bytes "cdc-consumer-logs-*"⟩,
    ⟨bytes "cdc-system-logs", bytes "cdc-system-logs-*"⟩,
    ⟨bytes "orders", bytes "orders"⟩]

/-- A title names an index, or with a `*` behind it every index that starts so. -/
def DataView.covers (v : DataView) (index : Bytes) : Bool :=
  if v.title.getLast? = some 42 then v.title.dropLast.isPrefixOf index else v.title == index

/-- A query of the search bar: nothing, or `field.keyword: value`. -/
inductive Query where
  | empty
  | keyword (field value : Bytes)

def Query.accepts (q : Query) (e : Event) : Bool :=
  match q with
  | .empty => true
  | .keyword field value => e.text field == some value

/-- A metric with one `count`. -/
structure Card where
  title : Bytes
  view : Bytes
  query : Query

def totalOrders : Card := ⟨bytes "Total Orders Ingested", bytes "cdc-api-logs", .empty⟩

def idempotencyDedup : Card :=
  ⟨bytes "Idempotent Replays Filtered", bytes "cdc-system-logs",
    .keyword (bytes "event") (bytes "email_notification_skipped_duplicate")⟩

def dlqCount : Card :=
  ⟨bytes "Dead Letter Queue Faults", bytes "cdc-system-logs",
    .keyword (bytes "event") (bytes "routed_to_dlq")⟩

/-- The number a card shows over the documents stored; none without its view. -/
def Card.shows (c : Card) (docs : List Stored) : Option Nat :=
  (dataViews.find? (fun v => v.id == c.view)).map fun v =>
    docs.countP (fun d => v.covers d.index && c.query.accepts d.fields)

end CdcPipeline.Model.Dashboard
