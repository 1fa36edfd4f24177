import CdcPipeline.Library.Program
import CdcPipeline.Library.Json
import CdcPipeline.Model.Redis

namespace CdcPipeline.Model

open Library Text

/-- A consumed message. A null key or payload pointer is `none`. -/
structure Message where
  topic : Bytes
  partition : Nat
  offset : Nat
  key : Option Bytes
  payload : Option Bytes
deriving DecidableEq

/-- What `consumer_->consume` hands back. -/
inductive Delivery where
  | null
  | timedOut
  | partitionEof
  | failed (errstr : Bytes)
  | message (m : Message)

/-- `serdes_deserialize_avro` and then `avro_value_to_json`. -/
inductive AvroResult where
  | decodeFailed (errstr : Bytes)
  | conversionFailed
  | text (json : Bytes)

/-- The lines the consumers log, with the values they interpolate. Lines that print
an offset carry the message or the offset they print it from. -/
inductive LogEvent where
  | avroDeserializationFailed (error : Bytes)
  | avroToJsonConversionFailed
  | jsonParseFailed (error : Bytes)
  | rawPayloadParseFailed (error : Bytes)
  | unparseablePayloadRoutingDlq (m : Message)
  | recordProcessed (m : Message)
  | recordProcessingFailed (attempt maxRetries : Int) (m : Message) (error : Bytes)
  | retriesExhaustedRoutingDlq (m : Message) (error : Bytes)
  | dlqProducerUnavailable
  | dlqProduceFailed (error : Bytes)
  | routedToDlq (dlqTopic : Bytes) (m : Message) (error : Bytes)
  | kafkaConsumerWarning (error : Bytes)
  | consumerStopped
  | redisUpdaterConnected
  | redisDeleted (orderId : Bytes) (lsn : Int) (offset : Nat)
  | redisUpdaterSkipNoId (offset : Nat)
  | redisStaleEventIgnored (orderId : Bytes) (lsn : Int) (offset : Nat)
  | redisUpdated (orderId status : Bytes) (lsn : Int) (offset : Nat)
  | esDeleted (orderId : Bytes) (status : Int)
  | esIndexerSkipNoId (offset : Nat)
  | esIndexed (orderId : Bytes) (statusCode : Int) (offset : Nat)
  | notifierRedisConnected
  | emailNotificationSent (customerId orderId status : Bytes) (offset : Nat)
  | emailNotificationSkippedDuplicate (orderId status : Bytes) (offset : Nat)

/-- The three `commitSync` calls of `Run`. -/
inductive CommitSite where
  | unparseable
  | processed
  | exhausted
deriving DecidableEq

/-- The calls `Run` makes out of the consumer, around those its `ProcessRecord`
makes to a sink. `produce` names the message its record was built from. -/
inductive RunOp (Sink : Type) where
  | storeRunning (b : Bool)
  | loadRunning
  | consume (timeoutMs : Nat)
  | serdesDeserialize (payload : Bytes)
  | sink (op : Sink)
  | sleepFor (ms : Int)
  | systemClock
  | hasProducer
  | produce (origin : Message) (topic body : Bytes) (key : Option Bytes)
  | poll (timeoutMs : Nat)
  | flush (timeoutMs : Nat)
  | commitSync (m : Message) (site : CommitSite)
  | close
  | log (e : LogEvent)

@[reducible] def RunAns {Sink : Type} (SinkAns : Sink → Type) : RunOp Sink → Type
  | .loadRunning => Bool
  | .consume _ => Delivery
  | .serdesDeserialize _ => AvroResult
  | .sink op => SinkAns op
  | .systemClock => Int
  | .hasProducer => Bool
  | .produce .. => Except Bytes Unit
  | _ => Unit

/-- The calls of the two consumers that talk to Redis. No reply is a null reply. -/
inductive RedisOp where
  | contextUsable
  | redisConnect
  | command (c : Command)
  | log (e : LogEvent)

@[reducible] def RedisAns : RedisOp → Type
  | .contextUsable => Bool
  | .redisConnect => Except Bytes Unit
  | .command _ => Option Reply
  | .log _ => Unit

inductive HttpRequest where
  | put (url body : Bytes)
  | delete (url : Bytes)
deriving DecidableEq

/-- A `cpr::Response`: status zero when no response came, with the error's message. -/
structure HttpResponse where
  statusCode : Int
  error : Bytes
  text : Bytes

/-- The calls of the consumer that talks to Elasticsearch. -/
inductive HttpOp where
  | request (r : HttpRequest)
  | log (e : LogEvent)

@[reducible] def HttpAns : HttpOp → Type
  | .request _ => HttpResponse
  | .log _ => Unit

end CdcPipeline.Model
