import CdcPipeline.Model.KafkaConsumerBase

namespace CdcPipeline.Model

open Library Text

/-- What surrounds a `Run` that nobody stops while it handles one message. `ProcessRecord`
finds the sink as it is at its attempt, and serdes may ask the registry for a schema. -/
structure Surroundings (Sink : Type) (SinkAns : Sink → Type) (S : Type) where
  message : Message
  sink : Nat → Handler Sink SinkAns S
  asleep : Int → S → S
  cached : Bytes → Bool
  reachable : Nat → Bool
  serdes : Bytes → AvroResult
  unreachable : Bytes
  now : Int
  producer : Bool
  produced : Except Bytes Unit

/-- What serdes has asked the registry for, and the schemas it got. -/
structure Lookups where
  made : Nat
  known : List Bytes

/-- The schema a payload is encoded with. -/
def schemaId (data : Bytes) : Bytes := (data.drop 1).take 4

/-- `serdes_deserialize_avro` fails while it cannot get a schema it does not have. -/
def Surroundings.lookUp {Sink S : Type} {SinkAns : Sink → Type} (E : Surroundings Sink SinkAns S)
    (l : Lookups) (data : Bytes) : AvroResult × Lookups :=
  if E.cached (schemaId data) || l.known.contains (schemaId data) then (E.serdes data, l)
  else if E.reachable l.made then (E.serdes data, ⟨l.made + 1, schemaId data :: l.known⟩)
  else (.decodeFailed E.unreachable, ⟨l.made + 1, l.known⟩)

/-- What has come of the message: attempts that threw, schemas asked for, records produced
to the dead-letter topic, and what was logged and committed. -/
structure Handling (S : Type) where
  sink : S
  attempts : Nat
  lookups : Lookups
  deadLetters : List Message
  processed : List Message
  exhausted : List Message
  committed : List CommitSite

namespace Handling

variable {Sink S : Type} {SinkAns : Sink → Type}

def start (sink : S) : Handling S := ⟨sink, 0, ⟨0, []⟩, [], [], [], []⟩

def logged (h : Handling S) : LogEvent → Handling S
  | .recordProcessed m => { h with processed := m :: h.processed }
  | .recordProcessingFailed _ _ _ _ => { h with attempts := h.attempts + 1 }
  | .retriesExhaustedRoutingDlq m _ => { h with exhausted := m :: h.exhausted }
  | _ => h

def answer (E : Surroundings Sink SinkAns S) :
    Handler (RunOp Sink) (RunAns SinkAns) (Handling S)
  | .storeRunning _, h => ((), h)
  | .loadRunning, h => (true, h)
  | .consume _, h => (.message E.message, h)
  | .serdesDeserialize data, h =>
    ((E.lookUp h.lookups data).1, { h with lookups := (E.lookUp h.lookups data).2 })
  | .sink op, h =>
    ((E.sink h.attempts op h.sink).1, { h with sink := (E.sink h.attempts op h.sink).2 })
  | .sleepFor ms, h => ((), { h with sink := E.asleep ms h.sink })
  | .systemClock, h => (E.now, h)
  | .hasProducer, h => (E.producer, h)
  | .produce m _ _ _, h => (E.produced, { h with deadLetters := m :: h.deadLetters })
  | .poll _, h => ((), h)
  | .flush _, h => ((), h)
  | .commitSync _ site, h => ((), { h with committed := site :: h.committed })
  | .close, h => ((), h)
  | .log e, h => ((), logged h e)

/-- One pass through the loop of `Run`. -/
def pass (E : Surroundings Sink SinkAns S) (c : KafkaConsumerBase.Consumer Sink SinkAns) (s : S) :
    Except Bytes Unit × Handling S :=
  (KafkaConsumerBase.iteration c.parse c.cfg c.processRecord).run (answer E) (start s)

end Handling

end CdcPipeline.Model
