import CdcPipeline.Model.Fleet

namespace CdcPipeline.Proofs.FleetRuns

open Library Text Model KafkaConsumerBase

variable {ι Sink S : Type} {SinkAns : Sink → Type}

/-- Answers for one instance: it is given `m` whenever it asks, and no producer. -/
def serve (m : Message) (avro : Bytes → AvroResult) (sink : Handler Sink SinkAns S) :
    Handler (RunOp Sink) (RunAns SinkAns) (Fleet S)
  | .storeRunning _, w => ((), w)
  | .loadRunning, w => (true, w)
  | .consume _, w => (.message m, w)
  | .serdesDeserialize data, w => (avro data, w)
  | .sink op, w => ((sink op w.sink).1, Fleet.withSink w (sink op w.sink).2)
  | .sleepFor _, w => ((), w)
  | .systemClock, w => ((0 : Int), w)
  | .hasProducer, w => (false, w)
  | .produce .., w => (.error [], w)
  | .poll _, w => ((), w)
  | .flush _, w => ((), w)
  | .commitSync m .processed, w => ((), Fleet.acknowledge w m)
  | .commitSync _ _, w => ((), w)
  | .close, w => ((), w)
  | .log _, w => ((), w)

theorem serve_allowed {E : FleetSetting ι Sink SinkAns S} {i : ι} {m : Message}
    {avro : Bytes → AvroResult} {sink : Handler Sink SinkAns S} (hm : E.delivers m)
    (havro : ∀ data, E.serdes data (avro data))
    (hsink : ∀ op s, E.sinkCall i op s (sink op s).1 (sink op s).2)
    (op : RunOp Sink) (w : Fleet S) :
    Fleet.call E i op w (serve m avro sink op w).1 (serve m avro sink op w).2 := by
  cases op with
  | consume n =>
    refine ⟨rfl, fun m' hd => ?_⟩
    obtain rfl := Delivery.message.inj hd
    exact hm
  | serdesDeserialize data => exact ⟨rfl, havro data⟩
  | sink op => exact ⟨_, hsink op _, rfl⟩
  | commitSync m site =>
    cases site with
    | processed => rfl
    | unparseable => rfl
    | exhausted => rfl
  | _ => rfl

/-- What an instance's pass over a message comes to. -/
def pass (c : Consumer Sink SinkAns) (m : Message) (avro : Bytes → AvroResult)
    (sink : Handler Sink SinkAns S) (w : Fleet S) : Except Bytes Node × Fleet S :=
  (c.run .head).run (serve m avro sink) w

/-- One instance starts and makes one pass over one message, while the others stand still. -/
theorem reach_pass [DecidableEq ι] {E : FleetSetting ι Sink SinkAns S}
    {c : ι → Consumer Sink SinkAns} {w₀ w : Fleet S}
    {cfg : Machine.Config ι (RunOp Sink) (RunAns SinkAns) Bytes Node (Fleet S)}
    (hc : (Fleet.machine E c).Reach w₀ cfg) (hw : cfg.shared = w) (avro : Bytes → AvroResult)
    (sink : Handler Sink SinkAns S) {i : ι} (hi : cfg.threads i = (c i).run .start) {m : Message}
    (hm : E.delivers m) (havro : ∀ data, E.serdes data (avro data))
    (hsink : ∀ op s, E.sinkCall i op s (sink op s).1 (sink op s).2)
    (hrun : (pass (c i) m avro sink w).1 = .ok .head) :
    ∃ cfg', (Fleet.machine E c).Reach w₀ cfg' ∧ cfg'.shared = (pass (c i) m avro sink w).2 ∧
      ∀ j, j ≠ i → cfg'.threads j = cfg.threads j := by
  subst hw
  have allowed : ∀ (p : RunProg SinkAns Node) w,
      p.Along (serve m avro sink) ((Fleet.machine E c).call i) w := fun p w =>
    Prog.along_of_forall (serve_allowed hm havro hsink) p w
  have hstarted := hc.node (n := Node.start) (m := Node.head) (serve m avro sink) hi
    (allowed ((c i).run .start) _) rfl
  have hpassed := hstarted.node (n := Node.head) (serve m avro sink) (cfg.resume_self ..)
    (allowed ((c i).run .head) _) (Prod.ext hrun rfl)
  refine ⟨_, hpassed, rfl, fun j hj => ?_⟩
  rw [Machine.Config.resume_ne _ hj, Machine.Config.resume_ne _ hj]

end CdcPipeline.Proofs.FleetRuns
