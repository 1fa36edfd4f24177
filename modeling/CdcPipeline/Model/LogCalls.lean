import CdcPipeline.Model.LogLine

namespace CdcPipeline.Model

open Library Text

/-- The calls of the API server, its clients and its load generator, with what they print. -/
inductive ApiCall where
  | apiOrderCreated (orderId : Bytes) (latencyMs : Int)
  | apiBadRequest (error : Bytes)
  | apiServerError (error : Bytes)
  | apiOrderStatusUpdated (orderId newStatus : Bytes) (latencyMs : Int)
  | apiCacheHit (orderId : Bytes)
  | apiCacheMiss (orderId : Bytes)
  | apiRedisFallback (error orderId : Bytes)
  | apiDbHit (orderId : Bytes)
  | apiServerStarting (port : Int)
  | dbConnected (dbname : Bytes)
  | dbConnectionFailed (error : Bytes)
  | orderCreatedDb (orderId : Bytes)
  | dbInsertFailed (error : Bytes)
  | orderStatusUpdatedDb (orderId newStatus : Bytes)
  | dbUpdateFailed (orderId error : Bytes)
  | dbReadFailed (error : Bytes)
  | redisConnected (host : Bytes)
  | loadGeneratorStarted (apiHost : Bytes) (apiPort reqPerSec numThreads : Int)
  | loadGeneratorStopped
  | patchSent (threadId : Int) (orderId newStatus : Bytes) (statusCode latencyMs : Int)
  | patchFailed (threadId statusCode latencyMs : Int)
  | postSent (threadId statusCode latencyMs : Int)
  | postFailed (threadId statusCode latencyMs : Int)
  | shutdownSignalReceived (signal : Int)
  | waitingForDbOrRedis (attempt : Int) (error : Bytes)
  | loadGeneratorConfig (rps threads : Int)
  | fatalStartupError (error : Bytes)

/-- The calls of the consumers, with what they print. -/
inductive ConsumerCall where
  | consumersStarting (brokers topic schemaRegistry : Bytes)
  | waitingForServices (attempt : Int) (error : Bytes)
  | launchingConsumerThreads
  | esIndexerCrashed (error : Bytes)
  | redisUpdaterCrashed (error : Bytes)
  | notifierCrashed (error : Bytes)
  | allConsumerThreadsRunning
  | shutdownSignalReceived
  | consumersShutdownComplete
  | consumersFatalError (error : Bytes)
  | avroDeserializerInitialized (schemaRegistry : Bytes)
  | avroDeserializationFailed (error : Bytes)
  | avroToJsonConversionFailed
  | jsonParseFailed (error : Bytes)
  | rawPayloadParseFailed (error : Bytes)
  | consumerSubscribed (consumer topic groupId dlqTopic : Bytes) (maxRetries : Int)
  | dlqProducerInitWarning (consumer error : Bytes)
  | dlqProducerUnavailable (consumer : Bytes)
  | dlqProduceFailed (consumer error : Bytes)
  | routedToDlq (consumer dlqTopic : Bytes) (offset : Int) (error : Bytes)
  | unparseablePayloadRoutingDlq (consumer : Bytes) (offset : Int)
  | recordProcessed (consumer : Bytes) (offset processingLatencyMs : Int)
  | recordProcessingFailed (consumer : Bytes) (attempt maxRetries offset : Int) (error : Bytes)
  | retriesExhaustedRoutingDlq (consumer : Bytes) (offset : Int) (error : Bytes)
  | kafkaConsumerWarning (consumer error : Bytes)
  | consumerStopped (consumer : Bytes)
  | redisUpdaterConnected (host : Bytes)
  | redisDeleted (orderId : Bytes) (lsn offset : Int)
  | redisUpdaterSkipNoId (offset : Int)
  | redisStaleEventIgnored (orderId : Bytes) (lsn offset : Int)
  | redisUpdated (orderId status : Bytes) (lsn offset sinkLatencyMs : Int)
  | esDeleted (orderId : Bytes) (status : Int)
  | esIndexerSkipNoId (offset : Int)
  | esIndexed (orderId : Bytes) (statusCode offset sinkLatencyMs : Int)
  | notifierRedisConnected (host : Bytes)
  | emailNotificationSent (customerId orderId status : Bytes) (offset : Int)
  | emailNotificationSkippedDuplicate (orderId status : Bytes) (offset : Int)

namespace Field

/-- `"name": "{}"` -/
def string (name : String) (s : Bytes) : Field := .text (bytes name) [.arg s]

/-- `"name": "value"` -/
def constant (name value : String) : Field := .text (bytes name) [.lit (bytes value)]

/-- `"name": {}` -/
def integer (name : String) (n : Int) : Field := .number (bytes name) n

end Field

def ApiCall.line : ApiCall → LogLine
  | apiOrderCreated orderId latencyMs =>
    ⟨.info, bytes "api_order_created",
      [.string "order_id" orderId, .integer "latency_ms" latencyMs]⟩
  | apiBadRequest error => ⟨.warn, bytes "api_bad_request", [.string "error" error]⟩
  | apiServerError error => ⟨.error, bytes "api_server_error", [.string "error" error]⟩
  | apiOrderStatusUpdated orderId newStatus latencyMs =>
    ⟨.info, bytes "api_order_status_updated",
      [.string "order_id" orderId, .string "new_status" newStatus, .integer "latency_ms" latencyMs]⟩
  | apiCacheHit orderId => ⟨.info, bytes "api_cache_hit", [.string "order_id" orderId]⟩
  | apiCacheMiss orderId => ⟨.info, bytes "api_cache_miss", [.string "order_id" orderId]⟩
  | apiRedisFallback error orderId =>
    ⟨.warn, bytes "api_redis_fallback", [.string "error" error, .string "order_id" orderId]⟩
  | apiDbHit orderId => ⟨.info, bytes "api_db_hit", [.string "order_id" orderId]⟩
  | apiServerStarting port => ⟨.info, bytes "api_server_starting", [.integer "port" port]⟩
  | dbConnected dbname => ⟨.info, bytes "db_connected", [.string "dbname" dbname]⟩
  | dbConnectionFailed error =>
    ⟨.critical, bytes "db_connection_failed", [.string "error" error]⟩
  | orderCreatedDb orderId => ⟨.info, bytes "order_created_db", [.string "order_id" orderId]⟩
  | dbInsertFailed error => ⟨.error, bytes "db_insert_failed", [.string "error" error]⟩
  | orderStatusUpdatedDb orderId newStatus =>
    ⟨.info, bytes "order_status_updated_db",
      [.string "order_id" orderId, .string "new_status" newStatus]⟩
  | dbUpdateFailed orderId error =>
    ⟨.error, bytes "db_update_failed", [.string "order_id" orderId, .string "error" error]⟩
  | dbReadFailed error => ⟨.error, bytes "db_read_failed", [.string "error" error]⟩
  | redisConnected host => ⟨.info, bytes "redis_connected", [.string "host" host]⟩
  | loadGeneratorStarted apiHost apiPort reqPerSec numThreads =>
    ⟨.info, bytes "load_generator_started",
      [.text (bytes "target") [.arg apiHost, .lit (bytes ":"), .num apiPort],
        .integer "req_per_sec" reqPerSec, .integer "threads" numThreads]⟩
  | loadGeneratorStopped => ⟨.info, bytes "load_generator_stopped", []⟩
  | patchSent threadId orderId newStatus statusCode latencyMs =>
    ⟨.info, bytes "request_sent",
      [.constant "method" "PATCH", .integer "thread_id" threadId, .string "order_id" orderId,
        .string "new_status" newStatus, .integer "status_code" statusCode,
        .integer "latency_ms" latencyMs]⟩
  | patchFailed threadId statusCode latencyMs =>
    ⟨.warn, bytes "request_failed",
      [.constant "method" "PATCH", .integer "thread_id" threadId, .integer "status_code" statusCode,
        .integer "latency_ms" latencyMs]⟩
  | postSent threadId statusCode latencyMs =>
    ⟨.info, bytes "request_sent",
      [.constant "method" "POST", .integer "thread_id" threadId, .integer "status_code" statusCode,
        .integer "latency_ms" latencyMs]⟩
  | postFailed threadId statusCode latencyMs =>
    ⟨.warn, bytes "request_failed",
      [.constant "method" "POST", .integer "thread_id" threadId, .integer "status_code" statusCode,
        .integer "latency_ms" latencyMs]⟩
  | shutdownSignalReceived signal =>
    ⟨.info, bytes "shutdown_signal_received", [.integer "signal" signal]⟩
  | waitingForDbOrRedis attempt error =>
    ⟨.warn, bytes "waiting_for_db_or_redis", [.integer "attempt" attempt, .string "error" error]⟩
  | loadGeneratorConfig rps threads =>
    ⟨.info, bytes "load_generator_config", [.integer "rps" rps, .integer "threads" threads]⟩
  | fatalStartupError error => ⟨.critical, bytes "fatal_startup_error", [.string "error" error]⟩

def ConsumerCall.line : ConsumerCall → LogLine
  | consumersStarting brokers topic schemaRegistry =>
    ⟨.info, bytes "consumers_starting",
      [.string "brokers" brokers, .string "topic" topic, .string "schema_registry" schemaRegistry]⟩
  | waitingForServices attempt error =>
    ⟨.warn, bytes "waiting_for_services", [.integer "attempt" attempt, .string "error" error]⟩
  | launchingConsumerThreads => ⟨.info, bytes "launching_consumer_threads", []⟩
  | esIndexerCrashed error => ⟨.critical, bytes "es_indexer_crashed", [.string "error" error]⟩
  | redisUpdaterCrashed error =>
    ⟨.critical, bytes "redis_updater_crashed", [.string "error" error]⟩
  | notifierCrashed error => ⟨.critical, bytes "notifier_crashed", [.string "error" error]⟩
  | allConsumerThreadsRunning => ⟨.info, bytes "all_consumer_threads_running", []⟩
  | shutdownSignalReceived => ⟨.info, bytes "shutdown_signal_received", []⟩
  | consumersShutdownComplete => ⟨.info, bytes "consumers_shutdown_complete", []⟩
  | consumersFatalError error =>
    ⟨.critical, bytes "consumers_fatal_error", [.string "error" error]⟩
  | avroDeserializerInitialized schemaRegistry =>
    ⟨.info, bytes "avro_deserializer_initialized", [.string "schema_registry" schemaRegistry]⟩
  | avroDeserializationFailed error =>
    ⟨.error, bytes "avro_deserialization_failed", [.string "error" error]⟩
  | avroToJsonConversionFailed => ⟨.error, bytes "avro_to_json_conversion_failed", []⟩
  | jsonParseFailed error => ⟨.error, bytes "json_parse_failed", [.string "error" error]⟩
  | rawPayloadParseFailed error =>
    ⟨.error, bytes "raw_payload_parse_failed", [.string "error" error]⟩
  | consumerSubscribed consumer topic groupId dlqTopic maxRetries =>
    ⟨.info, bytes "consumer_subscribed",
      [.string "consumer" consumer, .string "topic" topic, .string "group_id" groupId,
        .string "dlq_topic" dlqTopic, .integer "max_retries" maxRetries]⟩
  | dlqProducerInitWarning consumer error =>
    ⟨.warn, bytes "dlq_producer_init_warning", [.string "consumer" consumer, .string "error" error]⟩
  | dlqProducerUnavailable consumer =>
    ⟨.error, bytes "dlq_producer_unavailable", [.string "consumer" consumer]⟩
  | dlqProduceFailed consumer error =>
    ⟨.error, bytes "dlq_produce_failed", [.string "consumer" consumer, .string "error" error]⟩
  | routedToDlq consumer dlqTopic offset error =>
    ⟨.warn, bytes "routed_to_dlq",
      [.string "consumer" consumer, .string "dlq_topic" dlqTopic, .integer "offset" offset,
        .string "error" error]⟩
  | unparseablePayloadRoutingDlq consumer offset =>
    ⟨.error, bytes "unparseable_payload_routing_dlq",
      [.string "consumer" consumer, .integer "offset" offset]⟩
  | recordProcessed consumer offset processingLatencyMs =>
    ⟨.info, bytes "record_processed",
      [.string "consumer" consumer, .integer "offset" offset,
        .integer "processing_latency_ms" processingLatencyMs]⟩
  | recordProcessingFailed consumer attempt maxRetries offset error =>
    ⟨.warn, bytes "record_processing_failed",
      [.string "consumer" consumer, .integer "attempt" attempt, .integer "max_retries" maxRetries,
        .integer "offset" offset, .string "error" error]⟩
  | retriesExhaustedRoutingDlq consumer offset error =>
    ⟨.error, bytes "retries_exhausted_routing_dlq",
      [.string "consumer" consumer, .integer "offset" offset, .string "error" error]⟩
  | kafkaConsumerWarning consumer error =>
    ⟨.warn, bytes "kafka_consumer_warning", [.string "consumer" consumer, .string "error" error]⟩
  | consumerStopped consumer => ⟨.info, bytes "consumer_stopped", [.string "consumer" consumer]⟩
  | redisUpdaterConnected host =>
    ⟨.info, bytes "redis_updater_connected", [.string "host" host]⟩
  | redisDeleted orderId lsn offset =>
    ⟨.info, bytes "redis_deleted",
      [.string "order_id" orderId, .integer "lsn" lsn, .integer "offset" offset]⟩
  | redisUpdaterSkipNoId offset =>
    ⟨.warn, bytes "redis_updater_skip_no_id", [.integer "offset" offset]⟩
  | redisStaleEventIgnored orderId lsn offset =>
    ⟨.warn, bytes "redis_stale_event_ignored",
      [.string "order_id" orderId, .integer "lsn" lsn, .integer "offset" offset]⟩
  | redisUpdated orderId status lsn offset sinkLatencyMs =>
    ⟨.info, bytes "redis_updated",
      [.constant "consumer" "RedisUpdater", .string "order_id" orderId, .string "status" status,
        .integer "lsn" lsn, .integer "offset" offset, .integer "sink_latency_ms" sinkLatencyMs]⟩
  | esDeleted orderId status =>
    ⟨.info, bytes "es_deleted", [.string "order_id" orderId, .integer "status" status]⟩
  | esIndexerSkipNoId offset =>
    ⟨.warn, bytes "es_indexer_skip_no_id", [.integer "offset" offset]⟩
  | esIndexed orderId statusCode offset sinkLatencyMs =>
    ⟨.info, bytes "es_indexed",
      [.constant "consumer" "ESIndexer", .string "order_id" orderId,
        .integer "status_code" statusCode, .integer "offset" offset,
        .integer "sink_latency_ms" sinkLatencyMs]⟩
  | notifierRedisConnected host =>
    ⟨.info, bytes "notifier_redis_connected", [.string "host" host]⟩
  | emailNotificationSent customerId orderId status offset =>
    ⟨.info, bytes "email_notification_sent",
      [.constant "consumer" "Notifier",
        .text (bytes "recipient") [.arg customerId, .lit (bytes "@example.com")],
        .string "order_id" orderId, .string "status" status,
        .text (bytes "subject")
          [.lit (bytes "Order "), .arg orderId, .lit (bytes " has been "), .arg status],
        .integer "offset" offset]⟩
  | emailNotificationSkippedDuplicate orderId status offset =>
    ⟨.warn, bytes "email_notification_skipped_duplicate",
      [.constant "consumer" "Notifier", .string "order_id" orderId, .string "status" status,
        .constant "reason" "Idempotency key already exists in Redis", .integer "offset" offset]⟩

/-- The calls that are made once `Logger::Init` has set the sinks up. -/
inductive Call where
  | api (c : ApiCall)
  | consumer (c : ConsumerCall)

namespace Call

def line : Call → LogLine
  | .api c => c.line
  | .consumer c => c.line

def service : Call → Service
  | .api _ => .orderApi
  | .consumer _ => .cdcConsumers

/-- What the TCP sink sends. -/
def sent (c : Call) (at_ : Moment) : Option Bytes :=
  c.line.payload.map (pattern at_ c.line.level c.service)

/-- The members that the event of the call should have. -/
def members (c : Call) (at_ : Moment) : List (Bytes × Json) :=
  header at_ c.line.level c.service ++ c.line.values

end Call

example (status : Bytes) : (ApiCall.apiOrderStatusUpdated (bytes "o1") status 3).line.format =
    bytes ("\x7b\x7b\"event\": \"api_order_status_updated\", \"order_id\": \"\x7b\x7d\", " ++
      "\"new_status\": \"\x7b\x7d\", \"latency_ms\": \x7b\x7d\x7d\x7d") := rfl

end CdcPipeline.Model
