import CdcPipeline.Model.Debezium
import CdcPipeline.Model.Execution

namespace CdcPipeline.Model

open Library Text

/-- How an event says how new it is: by an LSN, or, where it has none, by the time of
its source or its own. -/
inductive Stamp where
  | lsn (v : Json)
  | sourceTime (v : Json)
  | time (v : Json)

namespace Stamp

def number : Stamp → Json
  | .lsn v | .sourceTime v | .time v => v

def isNumber : Json → Bool
  | .int _ | .float _ => true
  | _ => false

def value : Json → ℚ
  | .int n => n
  | .float x => (readDecimal x.text).getD 0
  | _ => 0

def lsnValue : Stamp → Option ℚ
  | .lsn v => some (value v)
  | _ => none

def timeValue : Stamp → Option ℚ
  | .lsn _ => none
  | .sourceTime v | .time v => some (value v)

/-- Where in the record the number stands, and that there is none which goes before it. -/
inductive Carried (record : Json) : Stamp → Prop where
  | lsn {src v} (source : record.member (bytes "source") = some src) (object : src.isObject = true)
      (lsn : src.member (bytes "lsn") = some v) (number : isNumber v = true) :
      Carried record (.lsn v)
  | sourceTime {src v} (source : record.member (bytes "source") = some src)
      (object : src.isObject = true) (noLsn : src.nonNull (bytes "lsn") = none)
      (ts : src.member (bytes "ts_ms") = some v) (number : isNumber v = true) :
      Carried record (.sourceTime v)
  | time {v} (noLsn : ∀ src, record.member (bytes "source") = some src →
        src.nonNull (bytes "lsn") = none)
      (noTs : ∀ src w, record.member (bytes "source") = some src →
        src.member (bytes "ts_ms") = some w → isNumber w = false)
      (ts : record.member (bytes "ts_ms") = some v) (number : isNumber v = true) :
      Carried record (.time v)

/-- The number cut to 64 bits, as `get<int64_t>()` gives it. -/
def version (s : Stamp) : Int := (Record.getInt64 s.number).getD 0

end Stamp

/-- An event of one order as it is consumed, with the number that orders it. -/
structure Stamped where
  record : Json
  key : Bytes
  offset : Nat
  id : Bytes
  image : Option Json
  stamp : Stamp
  uuid : isUuid id = true
  shape : Debezium.Shape record id image
  carried : stamp.Carried record

/-- The events of one order as the database made them: LSNs increase, and so do times. -/
structure StampedLog where
  id : Bytes
  events : List Stamped
  ofOrder : ∀ e ∈ events, e.id = id
  lsns : (events.filterMap (fun e => e.stamp.lsnValue)).Pairwise (· < ·)
  times : (events.filterMap (fun e => e.stamp.timeValue)).Pairwise (· < ·)

namespace Stamped

def deliver (r : Redis) (e : Stamped) : Redis :=
  (Exchange.process e.record e.key e.offset r).2.redis

/-- The events are delivered once and in order to a Redis that was empty. -/
def deliverAll (now : Nat) (es : List Stamped) : Redis := es.foldl deliver (Redis.empty now)

def accepted (r : Redis) (e : Stamped) : Bool := Exchange.accepts e.record e.key e.offset r

end Stamped

end CdcPipeline.Model
