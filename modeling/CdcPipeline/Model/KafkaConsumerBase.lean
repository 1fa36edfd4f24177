import CdcPipeline.Model.Calls
import CdcPipeline.Model.Record

namespace CdcPipeline.Model.KafkaConsumerBase

open Library Text

/-- What the constructor fixes. -/
structure Config where
  consumerName : Bytes
  topic : Bytes
  maxRetries : Int
  initialBackoffMs : Int
  maxBackoffMs : Int

/-- The constructor with its default retry arguments, as all three consumers call it. -/
def Config.withDefaults (consumerName topic : Bytes) : Config :=
  ⟨consumerName, topic, 5, 100, 3000⟩

def Config.dlqTopic (cfg : Config) : Bytes := cfg.topic ++ bytes ".dlq"

/-- A consumer: its configuration, `json::parse`, and its `ProcessRecord`. -/
structure Consumer (Sink : Type) (SinkAns : Sink → Type) where
  cfg : Config
  parse : Bytes → Except Bytes Json
  processRecord : Json → Bytes → Nat → Prog Sink SinkAns Bytes Unit

section Run

variable {Sink : Type} {SinkAns : Sink → Type}

abbrev RunProg (SinkAns : Sink → Type) := Prog (RunOp Sink) (RunAns SinkAns) Bytes

def call (op : RunOp Sink) : RunProg SinkAns (RunAns SinkAns op) := Prog.call op

/-- The Confluent header: a zero byte and a schema id. -/
def hasMagicByte (payload : Bytes) : Bool := 5 ≤ payload.length && payload.head? == some 0

variable (parse : Bytes → Except Bytes Json)

def deserializeAvro (payload : Bytes) : RunProg SinkAns (Option Json) := do
  match ← call (.serdesDeserialize payload) with
  | .decodeFailed errstr =>
    call (.log (.avroDeserializationFailed errstr))
    return none
  | .conversionFailed =>
    call (.log .avroToJsonConversionFailed)
    return none
  | .text json =>
    match parse json with
    | .ok doc => return some doc
    | .error what =>
      -- the exception is logged and the document, still null, is returned
      call (.log (.jsonParseFailed what))
      return some .null

/-- `AvroDeserializer::Deserialize` -/
def deserialize (payload : Option Bytes) : RunProg SinkAns (Option Json) :=
  match payload with
  | none | some [] => return none
  | some payload =>
    if hasMagicByte payload then deserializeAvro parse payload
    else match parse payload with
      | .ok doc => return some doc
      | .error what => do
        call (.log (.rawPayloadParseFailed what))
        return none

variable (cfg : Config)

/-- The envelope, its members in the order `json` keeps them. -/
def dlqEnvelope (m : Message) (errorReason : Bytes) (payloadJson : Json) (now : Int) : Json :=
  .obj [(bytes "consumer", .str cfg.consumerName),
    (bytes "error", .str errorReason),
    (bytes "original_offset", .int m.offset),
    (bytes "original_partition", .int m.partition),
    (bytes "original_topic", .str m.topic),
    (bytes "payload", if payloadJson.isNull then .str (m.payload.getD []) else payloadJson),
    (bytes "timestamp_ms", .int now)]

def dlqKey (m : Message) : Option Bytes := m.key.filter (fun k => !k.isEmpty)

/-- `RouteToDLQ` -/
def routeToDlq (m : Message) (errorReason : Bytes) (payloadJson : Json) :
    RunProg SinkAns Bool := do
  if ← call .hasProducer then
    let now ← call .systemClock
    let dlqBody ← Prog.ofExcept (dlqEnvelope cfg m errorReason payloadJson now).dump
    match ← call (.produce m cfg.dlqTopic dlqBody (dlqKey m)) with
    | .error e =>
      call (.log (.dlqProduceFailed e))
      return false
    | .ok () =>
      call (.poll 0)
      call (.flush 1000)
      call (.log (.routedToDlq cfg.dlqTopic m errorReason))
      return true
  else
    call (.log .dlqProducerUnavailable)
    return false

/-- The text of a decoded key: its id, its order id, or all of it. -/
def keyDocText (doc : Json) : Except Bytes Bytes :=
  match doc.nonNull (bytes "id") with
  | some v => Record.textOf v
  | none => match doc.nonNull (bytes "order_id") with
    | some v => Record.textOf v
    | none => doc.dump

def decodedKey (raw : Bytes) : RunProg SinkAns Bytes :=
  if hasMagicByte raw then do
    match ← deserialize parse (some raw) with
    | some doc => Prog.ofExcept (keyDocText doc)
    | none => pure []
  else pure []

/-- The message key, decoded when it is Avro; a key that decodes to nothing stays as it came. -/
def messageKey (m : Message) : RunProg SinkAns Bytes :=
  match m.key with
  | none | some [] => return []
  | some raw => do
    let key ← decodedKey parse raw
    return if key = [] then raw else key

variable (processRecord : Json → Bytes → Nat → Prog Sink SinkAns Bytes Unit)

/-- `ProcessRecord` as the run loop calls it. -/
def process (doc : Json) (key : Bytes) (m : Message) : RunProg SinkAns Unit :=
  (processRecord doc key m.offset).embed .sink (fun _ a => a)

/-- The pause after a failed attempt that is not the last, and the length of the next one. -/
def backOff (attempt backoffMs : Int) : RunProg SinkAns Int :=
  if attempt < cfg.maxRetries then do
    if ← call .loadRunning then
      call (.sleepFor backoffMs)
      return min (backoffMs * 2) cfg.maxBackoffMs
    else return backoffMs
  else return backoffMs

/-- The attempts from `attempt` on, of which `left` are allowed; the error is that of
the last one made. -/
def retryLoop (m : Message) (doc : Json) (key : Bytes) :
    (left : Nat) → (attempt backoffMs : Int) → (lastError : Bytes) →
      RunProg SinkAns (Except Bytes Unit)
  | 0, _, _, lastError => return .error lastError
  | left + 1, attempt, backoffMs, lastError => do
    if ← call .loadRunning then
      match ← Prog.attempt (do
          process processRecord doc key m
          call (.log (.recordProcessed m))) with
      | .ok () => return .ok ()
      | .error what =>
        call (.log (.recordProcessingFailed attempt cfg.maxRetries m what))
        let backoffMs ← backOff cfg attempt backoffMs
        retryLoop m doc key left (attempt + 1) backoffMs what
    else return .error lastError

/-- What `Run` does with a message it has consumed. -/
def handleMessage (m : Message) : RunProg SinkAns Unit := do
  let key ← messageKey parse m
  match ← deserialize parse m.payload with
  | none =>
    call (.log (.unparseablePayloadRoutingDlq m))
    let _ ← routeToDlq cfg m (bytes "Payload deserialization failed") .null
    call (.commitSync m .unparseable)
  | some doc =>
    match ← retryLoop cfg processRecord m doc key cfg.maxRetries.toNat 1 cfg.initialBackoffMs []
      with
    | .ok () => call (.commitSync m .processed)
    | .error lastError =>
      if ← call .loadRunning then
        call (.log (.retriesExhaustedRoutingDlq m lastError))
        let _ ← routeToDlq cfg m lastError doc
        call (.commitSync m .exhausted)

def iteration : RunProg SinkAns Unit := do
  match ← call (.consume 1000) with
  | .null | .timedOut | .partitionEof => return ()
  | .failed errstr => call (.log (.kafkaConsumerWarning errstr))
  | .message m => handleMessage parse cfg processRecord m

end Run

/-- Where `Run` is: before the loop, at its condition, behind it, or back in its caller. -/
inductive Node where
  | start
  | head
  | closing
  | returned
deriving DecidableEq

namespace Consumer

variable {Sink : Type} {SinkAns : Sink → Type}

def run (c : Consumer Sink SinkAns) : Node → RunProg SinkAns Node
  | .start => do
    call (.storeRunning true)
    return .head
  | .head => do
    if ← call .loadRunning then
      iteration c.parse c.cfg c.processRecord
      return .head
    else return .closing
  | .closing => do
    call .close
    if ← call .hasProducer then call (.flush 2000)
    call (.log .consumerStopped)
    return .returned
  | .returned => return .returned

end Consumer

end CdcPipeline.Model.KafkaConsumerBase
