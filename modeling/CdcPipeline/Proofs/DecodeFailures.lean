import CdcPipeline.Model.EsIndexer
import CdcPipeline.Model.Notifier
import CdcPipeline.Proofs.HealthySinks
import CdcPipeline.Proofs.PoisonPill
import CdcPipeline.Proofs.RetryRuns
import CdcPipeline.Proofs.RunAsks

namespace CdcPipeline.Proofs.DecodeFailures

open Library Text Model KafkaConsumerBase RunOutline RunAsks RetryRuns

/-- The steps of `Deserialize` that can fail. -/
inductive Stage where
  | avroDecode
  | avroToJson
  | jsonParse
  | rawParse
deriving DecidableEq

/-- The stage a payload fails at, given what serdes answers about it. An empty payload enters
none. -/
def failedStage (parse : Bytes → Except Bytes Json) (avro : AvroResult) :
    Option Bytes → Option Stage
  | none | some [] => none
  | some payload =>
    if hasMagicByte payload then
      match avro with
      | .decodeFailed _ => some .avroDecode
      | .conversionFailed => some .avroToJson
      | .text json => if (parse json).toOption.isSome then none else some .jsonParse
    else if (parse payload).toOption.isSome then none else some .rawParse

section
variable {Sink S : Type} {SinkAns : Sink → Type}

section Failure
variable (c : Consumer Sink SinkAns) (h : Handler (RunOp Sink) (RunAns SinkAns) S) (m : Message)
  (s : S)

/-- The state in which the key has been decoded, and the payload comes next. -/
def keyDecoded : S := ((messageKey c.parse m).run h s).2

/-- What serdes answers about the payload, if it is asked. -/
def payloadAnswer : AvroResult := (DecodingRuns.ask h (keyDecoded c h m s) m.payload).1

/-- The stage at which the payload fails here. -/
def failure : Option Stage := failedStage c.parse (payloadAnswer c h m s) m.payload

/-- The calls that `Run` makes for a message. -/
def handled : List (RunOp Sink) := (handleMessage c.parse c.cfg c.processRecord m).ops h s

/-- The message is refused, sent to the dead-letter topic, and never taken for processed. -/
structure Quarantined : Prop where
  refused : ((deserialize c.parse m.payload).run h (keyDecoded c h m s)).1 = .ok none
  sent : ∃ body, .produce m c.cfg.dlqTopic body (dlqKey m) ∈ handled c h m s
  unprocessed : ∀ m', .log (.recordProcessed m') ∉ handled c h m s ∧
    .commitSync m' .processed ∉ handled c h m s

/-- A failure at any stage quarantines the message. -/
def FailureQuarantined : Prop := (failure c h m s).isSome = true → Quarantined c h m s

theorem result_decoded : ((deserialize c.parse m.payload).run h (keyDecoded c h m s)).1 =
    .ok (decode c.parse (payloadAnswer c h m s) m.payload) :=
  DecodingRuns.result_deserialize m.payload (keyDecoded c h m s)

end Failure

variable {h : Handler (RunOp Sink) (RunAns SinkAns) S} {avro : AvroResult}
  {producer : Bool} {parse : Bytes → Except Bytes Json}

/-- A payload that fails is decoded to nothing, but for one whose Avro was decoded: that one
is decoded to a null. -/
theorem decode_failed {payload : Option Bytes} {st : Stage}
    (hf : failedStage parse avro payload = some st) :
    decode parse avro payload = if st = .jsonParse then some .null else none := by
  rcases payload with _ | _ | ⟨b, bs⟩
  · contradiction
  · contradiction
  · simp only [failedStage] at hf
    simp only [decode]
    by_cases hm : hasMagicByte (b :: bs) = true
    · simp only [hm, if_true] at hf ⊢
      cases avro with
      | decodeFailed e =>
        simp only [Option.some.injEq] at hf
        simp [decodeAvro, ← hf]
      | conversionFailed =>
        simp only [Option.some.injEq] at hf
        simp [decodeAvro, ← hf]
      | text json =>
        cases hp : (parse json).toOption with
        | some doc => simp [hp] at hf
        | none =>
          simp only [hp, Option.isSome_none, Bool.false_eq_true, if_false,
            Option.some.injEq] at hf
          simp [decodeAvro, hp, ← hf]
    · simp only [hm, Bool.false_eq_true, if_false] at hf ⊢
      cases hp : (parse (b :: bs)).toOption with
      | some doc => simp [hp] at hf
      | none =>
        simp only [hp, Option.isSome_none, Bool.false_eq_true, if_false, Option.some.injEq] at hf
        simp [← hf]

/-- What `Run` does once the payload is decoded. -/
def afterDecoding (c : Consumer Sink SinkAns) (m : Message) (key : Bytes) :
    Option Json → RunProg SinkAns Unit
  | none => divert c.cfg m
  | some doc => (retryLoop c.cfg c.processRecord m doc key c.cfg.maxRetries.toNat 1
      c.cfg.initialBackoffMs []).bind (settle c.cfg m doc)

theorem handleMessage_eq (c : Consumer Sink SinkAns) (m : Message) :
    handleMessage c.parse c.cfg c.processRecord m = (messageKey c.parse m).bind fun key =>
      (deserialize c.parse m.payload).bind (afterDecoding c m key) := by
  refine congrArg (messageKey c.parse m).bind (funext fun key => ?_)
  refine congrArg (deserialize c.parse m.payload).bind (funext fun doc => ?_)
  cases doc with
  | none => rfl
  | some doc =>
    refine congrArg (retryLoop c.cfg c.processRecord m doc key c.cfg.maxRetries.toNat 1
      c.cfg.initialBackoffMs []).bind (funext fun r => ?_)
    cases r <;> rfl

/-- Behind the calls of the decoders come those that what they give leads to. -/
theorem handled_decoded {c : Consumer Sink SinkAns} (m : Message)
    (hparse : ∀ s j, c.parse s = .ok j → j.utf8 = true) (s : S) :
    ∃ key pre t, (∀ op ∈ pre, Decodes op) ∧ handled c h m s = pre ++ (afterDecoding c m key
      (decode c.parse (payloadAnswer c h m s) m.payload)).ops h t := by
  obtain ⟨key, hkey⟩ := keyOf_ok hparse (DecodingRuns.ask h s m.key).1 m.key
  have hresult : ((messageKey c.parse m : RunProg SinkAns _).run h s).1 = .ok key :=
    (DecodingRuns.result_messageKey m s).trans hkey
  have hdoc := result_decoded c h m s
  rw [handled, handleMessage_eq]
  rcases Prog.ops_bind h (messageKey c.parse m) _ s with ⟨e, t, hr, -⟩ | ⟨key, t, hr, hops⟩
  · rw [hr] at hresult
    contradiction
  rw [hops]
  rw [keyDecoded, hr] at hdoc
  rcases Prog.ops_bind h (deserialize c.parse m.payload) (afterDecoding c m key) t with
    ⟨e, u, hr', -⟩ | ⟨doc, u, hr', hops⟩
  · rw [hr'] at hdoc
    contradiction
  rw [hr'] at hdoc
  refine ⟨key, (messageKey c.parse m).ops h s ++ (deserialize c.parse m.payload).ops h t, u,
    fun op hop => ?_, ?_⟩
  · rcases List.mem_append.mp hop with hop | hop
    · exact (asks_messageKey m).ops h s op hop
    · exact (asks_deserialize m.payload).ops h t op hop
  · rw [hops, ← Except.ok.inj hdoc, List.append_assoc]

/-- The dead letter is sent when there is a producer and the payload can be quoted. -/
theorem sent_iff (hproducer : ∀ s, (h .hasProducer s).1 = producer) {cfg : Config} {m : Message}
    (hname : Utf8.valid cfg.consumerName = true) (htopic : Utf8.valid m.topic = true) (s : S) :
    (∃ body, .produce m cfg.dlqTopic body (dlqKey m) ∈
        (divert cfg m : RunProg SinkAns Unit).ops h s) ↔
      producer = true ∧ Utf8.valid (PoisonPill.rawPayload m) = true := by
  have hreason : Utf8.valid (bytes "Payload deserialization failed") = true := by decide
  simp only [divert, routeToDlq, call, Prog.bind_eq, Prog.call_bind, Prog.ask_bind, Prog.ops_ask,
    List.mem_cons, reduceCtorEq, false_or, hproducer]
  cases producer with
  | false => simp [Prog.call]
  | true =>
    simp only [if_true, Prog.ask_bind, Prog.ops_ask, true_and]
    generalize (h .systemClock _).1 = now
    have hraw : Utf8.valid (PoisonPill.rawPayload m) = true ↔ ∃ body,
        (dlqEnvelope cfg m (bytes "Payload deserialization failed") .null now).dump = .ok body := by
      rw [Json.dump_ok_iff, PoisonPill.envelope_utf8 now hname htopic rfl]
      simp [hreason, Json.isNull]
    rw [hraw]
    cases (dlqEnvelope cfg m (bytes "Payload deserialization failed") .null now).dump with
    | error e => simp
    | ok body => simp

/-- The success branch of `Run`: its log line, and its commit. -/
theorem divert_unprocessed (cfg : Config) (m m' : Message) (s : S) :
    .log (.recordProcessed m') ∉ (divert cfg m : RunProg SinkAns Unit).ops h s ∧
      .commitSync m' .processed ∉ (divert cfg m : RunProg SinkAns Unit).ops h s := by
  have hcommit : (do
      let _ ← routeToDlq cfg m (bytes "Payload deserialization failed") .null
      call (.commitSync m .unparseable) : RunProg SinkAns Unit).Asks
      fun op => Diverts op ∨ op = .commitSync m .unparseable ∨
        op = .log (.unparseablePayloadRoutingDlq m) :=
    Prog.Asks.bind ((asks_routeToDlq cfg m _ _).mono fun _ hd => Or.inl hd)
      fun _ => ⟨.inr (.inl rfl), fun _ => trivial⟩
  have hasks : (divert cfg m : RunProg SinkAns Unit).Asks
      fun op => Diverts op ∨ op = .commitSync m .unparseable ∨
        op = .log (.unparseablePayloadRoutingDlq m) := ⟨.inr (.inr rfl), fun _ => hcommit⟩
  have hops := hasks.ops h s
  refine ⟨fun hmem => ?_, fun hmem => ?_⟩
  · rcases hops _ hmem with hd | he
    · exact hd
    · simp at he
  · rcases hops _ hmem with hd | he
    · exact hd
    · simp at he

theorem handled_unprocessed {c : Consumer Sink SinkAns} {m : Message} {pre : List (RunOp Sink)}
    {s t : S} (hpre : ∀ op ∈ pre, Decodes op)
    (hops : handled c h m s = pre ++ (divert c.cfg m : RunProg SinkAns _).ops h t) (m' : Message) :
    .log (.recordProcessed m') ∉ handled c h m s ∧ .commitSync m' .processed ∉ handled c h m s := by
  obtain ⟨hlog, hcommit⟩ := divert_unprocessed (h := h) c.cfg m m' t
  rw [hops]
  simp only [List.mem_append, hlog, hcommit, or_false]
  exact ⟨fun hmem => hpre _ hmem, fun hmem => hpre _ hmem⟩

/-- What a consumer does with a failure hangs on the stage, on the producer, and on whether
the payload can be quoted; its own `ProcessRecord` makes no difference. -/
theorem quarantined_iff {c : Consumer Sink SinkAns} {m : Message}
    (hparse : ∀ s j, c.parse s = .ok j → j.utf8 = true)
    (hname : Utf8.valid c.cfg.consumerName = true) (htopic : Utf8.valid m.topic = true)
    (hproducer : ∀ t, (h .hasProducer t).1 = producer) (s : S) :
    FailureQuarantined c h m s ↔ ∀ st, failure c h m s = some st →
      st ≠ .jsonParse ∧ producer = true ∧ Utf8.valid (PoisonPill.rawPayload m) = true := by
  unfold FailureQuarantined
  cases hf : failure c h m s with
  | none => simp
  | some st =>
    simp only [Option.isSome_some, forall_const, Option.some.injEq, forall_eq']
    have hd := decode_failed hf
    have hr := result_decoded c h m s
    by_cases hst : st = .jsonParse
    · -- the document is there, though it is null
      rw [if_pos hst] at hd
      refine ⟨fun hq => ?_, fun hq => absurd hst hq.1⟩
      rw [hd, hq.refused] at hr
      cases hr
    · rw [if_neg hst] at hd
      obtain ⟨key, pre, t, hpre, hops⟩ := handled_decoded (h := h) m hparse s
      rw [hd] at hops
      have hsent : (∃ body, .produce m c.cfg.dlqTopic body (dlqKey m) ∈ handled c h m s) ↔
          producer = true ∧ Utf8.valid (PoisonPill.rawPayload m) = true := by
        rw [← sent_iff hproducer hname htopic t, hops]
        refine exists_congr fun body => List.mem_append.trans ?_
        exact or_iff_right fun hmem => hpre _ hmem
      refine ⟨fun hq => ⟨hst, hsent.mp hq.sent⟩, fun hq => ⟨?_, hsent.mpr hq.2, ?_⟩⟩
      · rw [hr, hd]
      · exact handled_unprocessed hpre hops

/-- A consumer that makes nothing of a null commits such a message as processed. -/
theorem null_committed {c : Consumer Sink SinkAns} {m : Message}
    (hparse : ∀ s j, c.parse s = .ok j → j.utf8 = true)
    (running : ∀ t, (h .loadRunning t).1 = true)
    (hnull : ∀ key offset, c.processRecord .null key offset = .ret ())
    (hretries : 1 ≤ c.cfg.maxRetries) {s : S} (hf : failure c h m s = some .jsonParse) :
    .commitSync m .processed ∈ handled c h m s := by
  have hd : decode c.parse (payloadAnswer c h m s) m.payload = some .null := decode_failed hf
  obtain ⟨key, pre, t, -, hops⟩ := handled_decoded (h := h) m hparse s
  obtain ⟨left, hleft⟩ : ∃ left, c.cfg.maxRetries.toNat = left + 1 :=
    ⟨c.cfg.maxRetries.toNat - 1, by omega⟩
  rw [hops, hd]
  refine List.mem_append_right _ ?_
  rw [afterDecoding]
  simp only [hleft, retryLoop, process, hnull, call, Prog.bind_eq, Prog.call_bind, Prog.ask_bind,
    Prog.ops_ask, running, if_true, Prog.embed_ret, Prog.ret_bind]
  simp [Prog.call, Prog.attempt, settle, call]

end

section
variable {Sink : Type} {SinkAns : Sink → Type}

/-- In all surroundings, a failure is quarantined by this consumer exactly when it is not a
failure to parse decoded Avro, a producer is there, and the payload is UTF-8. -/
def QuarantinesExactly (c : Consumer Sink SinkAns) : Prop :=
  ∀ {S : Type} (h : Handler (RunOp Sink) (RunAns SinkAns) S) (producer : Bool) (m : Message)
    (s : S), (∀ t, (h .hasProducer t).1 = producer) → Utf8.valid m.topic = true →
    (FailureQuarantined c h m s ↔ ∀ st, failure c h m s = some st →
        st ≠ .jsonParse ∧ producer = true ∧ Utf8.valid (PoisonPill.rawPayload m) = true)

end

theorem failure_quarantined_iff (esUrl topic : Bytes) {parse : Bytes → Except Bytes Json}
    (hparse : ∀ s j, parse s = .ok j → j.utf8 = true) :
    QuarantinesExactly (EsIndexer.consumer esUrl topic parse) ∧
      QuarantinesExactly (RedisUpdater.consumer topic parse) ∧
      QuarantinesExactly (Notifier.consumer topic parse) := by
  have names : ∀ name ∈ ["ESIndexer", "RedisUpdater", "Notifier"],
      Utf8.valid (bytes name) = true := by decide
  refine ⟨?_, ?_, ?_⟩
  · intro S h producer m s hproducer htopic
    exact quarantined_iff hparse (names "ESIndexer" (by simp)) htopic hproducer s
  · intro S h producer m s hproducer htopic
    exact quarantined_iff hparse (names "RedisUpdater" (by simp)) htopic hproducer s
  · intro S h producer m s hproducer htopic
    exact quarantined_iff hparse (names "Notifier" (by simp)) htopic hproducer s

def framed : Message := ⟨bytes "orders", 0, 0, none, some [0, 0, 0, 0, 1]⟩

section
variable {Sink : Type} {SinkAns : Sink → Type} (sink : Handler Sink SinkAns Unit)

/-- Everything at hand, and one answer of serdes. -/
def sampleSurroundings (avro : AvroResult) : Surroundings Sink SinkAns Unit where
  message := framed
  sink := fun _ => sink
  asleep := fun _ s => s
  cached := fun _ => true
  reachable := fun _ => true
  serdes := fun _ => avro
  unreachable := []
  now := 0
  producer := true
  produced := .ok ()

/-- Avro that decodes to a text that is not JSON. -/
theorem sample_acknowledged {c : Consumer Sink SinkAns}
    (hparse : ∀ s j, c.parse s = .ok j → j.utf8 = true)
    (hnull : ∀ key offset, c.processRecord .null key offset = .ret ())
    (hretries : 1 ≤ c.cfg.maxRetries) (hempty : (c.parse []).toOption = none) :
    ¬ FailureQuarantined c (Handling.answer (sampleSurroundings sink (.text []))) framed
      (Handling.start ()) := by
  have hf : failure c (Handling.answer (sampleSurroundings sink (.text []))) framed
      (Handling.start ()) = some .jsonParse := by
    have hmagic : hasMagicByte [0, 0, 0, 0, 1] = true := rfl
    have ha : payloadAnswer c (Handling.answer (sampleSurroundings sink (.text []))) framed
      (Handling.start ()) = .text [] := rfl
    rw [failure, ha]
    simp only [framed, failedStage, hmagic, if_true, hempty, Option.isSome_none,
      Bool.false_eq_true, if_false]
  intro hq
  have hquarantined := hq (by rw [hf]; rfl)
  exact (hquarantined.unprocessed framed).2
    (null_committed hparse (fun _ => rfl) hnull hretries hf)

end

def respond : Handler HttpOp HttpAns Unit
  | .request _, s => (⟨200, [], []⟩, s)
  | .log _, s => ((), s)

theorem failure_quarantined_decode :
    FailureQuarantined (RedisUpdater.consumer (bytes "orders") BrokerRuns.parse)
      (Handling.answer (sampleSurroundings HealthySinks.serve (.decodeFailed (bytes "no schema"))))
      framed (Handling.start ()) := by
  refine ((failure_quarantined_iff [] (bytes "orders") BrokerRuns.parse_utf8).2.1 _ true _ _
    (fun _ => rfl) (by decide)).mpr fun st hst => ?_
  obtain rfl := Option.some.inj hst
  exact ⟨nofun, rfl, by decide⟩

/-- All three take what failed to parse for a record they have nothing to do with. -/
theorem unparsed_acknowledged :
    ¬ FailureQuarantined (EsIndexer.consumer [] (bytes "orders") BrokerRuns.parse)
        (Handling.answer (sampleSurroundings respond (.text []))) framed (Handling.start ()) ∧
      ¬ FailureQuarantined (RedisUpdater.consumer (bytes "orders") BrokerRuns.parse)
        (Handling.answer (sampleSurroundings HealthySinks.serve (.text []))) framed
        (Handling.start ()) ∧
      ¬ FailureQuarantined (Notifier.consumer (bytes "orders") BrokerRuns.parse)
        (Handling.answer (sampleSurroundings HealthySinks.serve (.text []))) framed
        (Handling.start ()) :=
  ⟨sample_acknowledged respond BrokerRuns.parse_utf8 (fun _ _ => rfl) (by decide) rfl,
    sample_acknowledged HealthySinks.serve BrokerRuns.parse_utf8 (fun _ _ => rfl) (by decide) rfl,
    sample_acknowledged HealthySinks.serve BrokerRuns.parse_utf8 (fun _ _ => rfl) (by decide) rfl⟩

end CdcPipeline.Proofs.DecodeFailures
