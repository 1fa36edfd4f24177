import CdcPipeline.Model.KafkaConsumerBase

namespace CdcPipeline.Proofs.RunAsks

open Library Text Model KafkaConsumerBase

/-- Any call but one that stores `running_`. -/
def Flagless {Sink : Type} : RunOp Sink → Prop
  | .storeRunning _ => False
  | _ => True

/-- Any call but those by which the loops go on, pause, or report an attempt. -/
def Aside {Sink : Type} : RunOp Sink → Prop
  | .storeRunning _ | .sleepFor _ => False
  | .log (.recordProcessed _) | .log (.recordProcessingFailed ..) => False
  | _ => True

theorem Aside.flagless {Sink : Type} {op : RunOp Sink} (h : Aside op) : Flagless op := by
  cases op with
  | storeRunning b => exact h
  | _ => trivial

/-- What decoding asks for: the registry's answer, and lines to be logged. -/
def Decodes {Sink : Type} : RunOp Sink → Prop
  | .serdesDeserialize _ => True
  | .log (.avroDeserializationFailed _) | .log .avroToJsonConversionFailed => True
  | .log (.jsonParseFailed _) | .log (.rawPayloadParseFailed _) => True
  | _ => False

theorem Decodes.aside {Sink : Type} {op : RunOp Sink} (h : Decodes op) : Aside op := by
  cases op with
  | serdesDeserialize => trivial
  | log e =>
    cases e with
    | avroDeserializationFailed | avroToJsonConversionFailed => trivial
    | jsonParseFailed | rawPayloadParseFailed => trivial
    | _ => exact h.elim
  | _ => exact h.elim

/-- What writing a dead letter asks for. -/
def Diverts {Sink : Type} : RunOp Sink → Prop
  | .hasProducer | .systemClock | .produce .. | .poll _ | .flush _ => True
  | .log (.dlqProduceFailed _) | .log .dlqProducerUnavailable | .log (.routedToDlq ..) => True
  | _ => False

theorem Diverts.aside {Sink : Type} {op : RunOp Sink} (h : Diverts op) : Aside op := by
  cases op with
  | hasProducer | systemClock | produce | poll | flush => trivial
  | log e =>
    cases e with
    | dlqProduceFailed | dlqProducerUnavailable | routedToDlq => trivial
    | _ => exact h.elim
  | _ => exact h.elim

variable {Sink : Type} {SinkAns : Sink → Type} {parse : Bytes → Except Bytes Json}

theorem asks_deserializeAvro (payload : Bytes) :
    (deserializeAvro parse payload : RunProg SinkAns (Option Json)).Asks Decodes := by
  simp only [deserializeAvro, call, Prog.bind_eq, Prog.pure_eq, Prog.call_bind]
  refine ⟨trivial, fun r => ?_⟩
  cases r with
  | decodeFailed e => exact ⟨trivial, fun _ => trivial⟩
  | conversionFailed => exact ⟨trivial, fun _ => trivial⟩
  | text json =>
    simp only
    cases parse json with
    | ok doc => trivial
    | error what => exact ⟨trivial, fun _ => trivial⟩

theorem asks_deserialize (payload : Option Bytes) :
    (deserialize parse payload : RunProg SinkAns (Option Json)).Asks Decodes := by
  unfold deserialize
  split
  · trivial
  · trivial
  · split
    · exact asks_deserializeAvro _
    · split
      · trivial
      · exact ⟨trivial, fun _ => trivial⟩

theorem asks_messageKey (m : Message) :
    (messageKey parse m : RunProg SinkAns Bytes).Asks Decodes := by
  unfold messageKey
  split
  · trivial
  · trivial
  · refine Prog.Asks.bind ?_ fun key => trivial
    unfold decodedKey
    split
    · refine Prog.Asks.bind (asks_deserialize _) fun doc => ?_
      cases doc with
      | none => trivial
      | some doc => exact Prog.asks_ofExcept _ _
    · trivial

theorem asks_routeToDlq (cfg : Config) (m : Message) (reason : Bytes) (doc : Json) :
    (routeToDlq cfg m reason doc : RunProg SinkAns Bool).Asks Diverts := by
  simp only [routeToDlq, call, Prog.bind_eq, Prog.pure_eq, Prog.call_bind]
  refine ⟨trivial, fun b => ?_⟩
  cases b with
  | false => exact ⟨trivial, fun _ => trivial⟩
  | true =>
    refine ⟨trivial, fun now => Prog.Asks.bind (Prog.asks_ofExcept _ _) fun body => ?_⟩
    refine ⟨trivial, fun r => ?_⟩
    cases r with
    | error e => exact ⟨trivial, fun _ => trivial⟩
    | ok _ => exact ⟨trivial, fun _ => ⟨trivial, fun _ => ⟨trivial, fun _ => trivial⟩⟩⟩

theorem asks_divert (cfg : Config) (m : Message) (reason : Bytes) (doc : Json)
    (site : CommitSite) :
    (do let _ ← routeToDlq cfg m reason doc; call (.commitSync m site) :
      RunProg SinkAns Unit).Asks Aside :=
  Prog.Asks.bind ((asks_routeToDlq cfg m reason doc).mono fun _ => Diverts.aside)
    fun _ => ⟨trivial, fun _ => trivial⟩

theorem asks_backOff (cfg : Config) (attempt backoffMs : Int) :
    (backOff cfg attempt backoffMs : RunProg SinkAns Int).Asks Flagless := by
  unfold backOff
  split
  · simp only [call, Prog.bind_eq, Prog.pure_eq, Prog.call_bind]
    refine ⟨trivial, fun b => ?_⟩
    cases b with
    | false => trivial
    | true => exact ⟨trivial, fun _ => trivial⟩
  · trivial

variable (cfg : Config) (processRecord : Json → Bytes → Nat → Prog Sink SinkAns Bytes Unit)

theorem asks_attempt (doc : Json) (key : Bytes) (m : Message) :
    (do process processRecord doc key m; call (.log (.recordProcessed m)) :
      RunProg SinkAns Unit).Asks Flagless := by
  refine Prog.Asks.bind ?_ fun _ => ⟨trivial, fun _ => trivial⟩
  exact (Prog.asks_true _).embed fun _ _ => trivial

/-- The retry loop, by induction on the attempts left. -/
theorem asks_retryLoop (m : Message) (doc : Json) (key : Bytes) (left : Nat)
    (attempt backoffMs : Int) (lastError : Bytes) :
    (retryLoop cfg processRecord m doc key left attempt backoffMs lastError).Asks Flagless := by
  induction left generalizing attempt backoffMs lastError with
  | zero => trivial
  | succ left ih =>
    simp only [retryLoop, call, Prog.bind_eq, Prog.pure_eq, Prog.call_bind]
    refine ⟨trivial, fun b => ?_⟩
    cases b with
    | false => trivial
    | true =>
      refine Prog.Asks.bind (asks_attempt processRecord doc key m).attempt fun r => ?_
      cases r with
      | ok _ => trivial
      | error what =>
        exact ⟨trivial, fun _ => Prog.Asks.bind (asks_backOff cfg _ _) fun _ => ih _ _ _⟩

theorem asks_handleMessage (m : Message) :
    (handleMessage parse cfg processRecord m).Asks Flagless := by
  refine Prog.Asks.bind ((asks_messageKey m).mono fun _ h => h.aside.flagless) fun key => ?_
  refine Prog.Asks.bind ((asks_deserialize _).mono fun _ h => h.aside.flagless) fun doc => ?_
  cases doc with
  | none => exact ⟨trivial, fun _ => (asks_divert cfg m _ _ _).mono fun _ => Aside.flagless⟩
  | some doc =>
    refine Prog.Asks.bind (asks_retryLoop cfg processRecord m doc key _ _ _ _) fun r => ?_
    cases r with
    | ok _ => exact ⟨trivial, fun _ => trivial⟩
    | error lastError =>
      refine ⟨trivial, fun b => ?_⟩
      cases b with
      | false => trivial
      | true => exact ⟨trivial, fun _ => (asks_divert cfg m _ _ _).mono fun _ => Aside.flagless⟩

theorem asks_iteration (c : Consumer Sink SinkAns) :
    (iteration c.parse c.cfg c.processRecord).Asks Flagless := by
  simp only [iteration, call, Prog.bind_eq, Prog.pure_eq, Prog.call_bind]
  refine ⟨trivial, fun d => ?_⟩
  cases d with
  | message m => exact asks_handleMessage c.cfg c.processRecord m
  | failed e => exact ⟨trivial, fun _ => trivial⟩
  | null => trivial
  | timedOut => trivial
  | partitionEof => trivial

/-- Behind its first statement `Run` leaves `running_` alone. -/
theorem asks_run (c : Consumer Sink SinkAns) {n : Node} (hn : n ≠ .start) :
    (c.run n).Asks Flagless := by
  cases n with
  | start => contradiction
  | head =>
    simp only [Consumer.run, call, Prog.bind_eq, Prog.pure_eq, Prog.call_bind]
    refine ⟨trivial, fun b => ?_⟩
    cases b with
    | false => trivial
    | true => exact Prog.Asks.bind (asks_iteration c) fun _ => trivial
  | closing =>
    simp only [Consumer.run, call, Prog.bind_eq, Prog.pure_eq, Prog.call_bind]
    refine ⟨trivial, fun _ => ⟨trivial, fun b => ?_⟩⟩
    cases b with
    | false => exact ⟨trivial, fun _ => trivial⟩
    | true => exact ⟨trivial, fun _ => ⟨trivial, fun _ => trivial⟩⟩
  | returned => trivial

/-- `Run` never goes back to its first statement. -/
theorem yields_run (c : Consumer Sink SinkAns) (n : Node) : (c.run n).Yields (· ≠ .start) := by
  cases n with
  | start => exact fun _ => nofun
  | head =>
    simp only [Consumer.run, call, Prog.bind_eq, Prog.pure_eq, Prog.call_bind]
    intro b
    cases b with
    | false => exact nofun
    | true => exact Prog.Yields.bind _ fun _ => nofun
  | closing =>
    intro _ b
    cases b with
    | false => exact fun _ => nofun
    | true => exact fun _ _ => nofun
  | returned => exact nofun

end CdcPipeline.Proofs.RunAsks
