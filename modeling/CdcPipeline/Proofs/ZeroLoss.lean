import CdcPipeline.Proofs.BrokerOutline
import CdcPipeline.Proofs.BrokerRuns

namespace CdcPipeline.Proofs.ZeroLoss

open Library Text Model KafkaConsumerBase RunOutline BrokerOutline

variable {Sink S : Type} {SinkAns : Sink → Type}

/-- The message at this offset was processed, or its dead letter is on the broker. -/
def Settled (E : Setting Sink SinkAns S) (l : Ledger S) (p o : Nat) : Prop :=
  ∃ m, Broker.messageAt E p o = some m ∧ (m ∈ l.processed ∨ m ∈ l.acked)

/-- No committed offset has passed a message that is lost. -/
def NothingLost (E : Setting Sink SinkAns S) (w : World S) : Prop :=
  ∀ p o, o < w.committed p → Settled E w.ledger p o

/-- Dead-lettering works: whenever `Run` turns to it there is a producer, `produce`
takes the record, and nothing is left in the queue when `flush(1000)` returns; and
the producer's thread never gives a record up. -/
def deadLettersArrive : Conditions SinkAns S where
  call := fun _ op w a _ => match op, a with
    | .log (.unparseablePayloadRoutingDlq _), _ => w.producer = true
    | .log (.retriesExhaustedRoutingDlq ..), _ => w.producer = true
    | .produce .., .error _ => False
    | .flush 1000, _ => w.ledger.queue = []
    | _, _ => True
  env := fun w w' => ∀ m ∈ w.ledger.queue, m ∈ w'.ledger.queue ∨ m ∈ w'.ledger.acked
  crash := fun _ _ => True

/-- The others only ever move a record from the queue to the broker. -/
structure Kept (l l' : Ledger S) : Prop where
  processed : ∀ m ∈ l.processed, m ∈ l'.processed
  acked : ∀ m ∈ l.acked, m ∈ l'.acked
  queue : ∀ m ∈ l.queue, m ∈ l'.queue ∨ m ∈ l'.acked

def Owed (m : Message) (l : Ledger S) : Prop := m ∈ l.queue ∨ m ∈ l.acked

def mark : Stage → Bool → Ledger S → Prop
  | .divert _, producer, _ => producer = true
  | .queued m, _, l => Owed m l
  | .flushed m, _, l => m ∈ l.acked
  | _, _, _ => True

theorem Settled.mono {E : Setting Sink SinkAns S} {l l' : Ledger S} {p o : Nat}
    (hp : ∀ m ∈ l.processed, m ∈ l'.processed) (ha : ∀ m ∈ l.acked, m ∈ l'.acked)
    (h : Settled E l p o) : Settled E l' p o := by
  obtain ⟨m, hm, hs⟩ := h
  exact ⟨m, hm, hs.imp (hp m) (ha m)⟩

theorem mark_stable (st : Stage) (b : Bool) (l l' : Ledger S) (hk : Kept l l')
    (h : mark st b l) : mark st b l' := by
  cases st with
  | queued m =>
    rcases h with hq | ha
    · exact hk.queue m hq
    · exact Or.inr (hk.acked m ha)
  | flushed m => exact hk.acked m h
  | divert m => exact h
  | _ => trivial

def claim (E : Setting Sink SinkAns S) : Claim S where
  good p n l := ∀ o < n, Settled E l p o
  mark := mark
  calm _ := True
  rely := Kept
  anti _ _ _ h o ho := h o (Nat.lt_succ_of_lt ho)
  refl _ := ⟨fun _ h => h, fun _ h => h, fun _ h => Or.inl h⟩
  trans l l₁ l₂ h h' := by
    refine ⟨?_, ?_, ?_⟩
    · exact fun m hm => h'.processed m (h.processed m hm)
    · exact fun m hm => h'.acked m (h.acked m hm)
    · intro m hm
      rcases h.queue m hm with hq | ha
      · exact h'.queue m hq
      · exact Or.inr (h'.acked m ha)
  goodStable _ _ _ _ hk h o ho := (h o ho).mono hk.processed hk.acked
  markStable := mark_stable
  calmStable _ _ _ _ := trivial

theorem env_kept {E : Setting Sink SinkAns S} {w w' : World S} (h : Broker.Env E w w')
    (hC : (deadLettersArrive : Conditions SinkAns S).env w w') : Kept w.ledger w'.ledger := by
  cases h with
  | stop => exact (claim E).refl _
  | deliver hq => exact ⟨fun _ h => h, fun m hm => List.mem_cons_of_mem _ hm, hC⟩
  | drop hq => exact ⟨fun _ h => h, fun _ h => h, hC⟩
  | sink he => exact ⟨fun _ h => h, fun _ h => h, hC⟩

/-- One more message settled settles one more offset. -/
theorem good_succ {E : Setting Sink SinkAns S} {l : Ledger S} {m : Message}
    (hm : Broker.messageAt E m.partition m.offset = some m)
    (hg : (claim E).good m.partition m.offset l) (hs : m ∈ l.processed ∨ m ∈ l.acked) :
    (claim E).good m.partition (m.offset + 1) l := by
  intro o ho
  rcases Nat.lt_succ_iff_lt_or_eq.mp ho with hlt | rfl
  · exact hg o hlt
  · exact ⟨m, hm, hs⟩

theorem record_good {E : Setting Sink SinkAns S} (p n : Nat) (l : Ledger S) (e : LogEvent)
    (h : (claim E).good p n l) : (claim E).good p n (Broker.record l e) := by
  intro o ho
  cases e with
  | recordProcessed m => exact (h o ho).mono (fun _ hm => List.mem_cons_of_mem _ hm) (fun _ h => h)
  | _ => exact (h o ho).mono (fun _ h => h) (fun _ h => h)

theorem settles (E : Setting Sink SinkAns S) (c : Consumer Sink SinkAns) :
    Settles E (claim E) deadLettersArrive c where
  env _ _ h hC := env_kept h hC
  crash _ _ _ _ _ _ h o ho := (h o ho).mono (fun _ h => h) (fun _ h => h)
  restart _ _ _ := trivial
  record := record_good
  enqueue _ _ _ _ h o ho := (h o ho).mono (fun _ h => h) (fun _ h => h)
  process m doc key w _ _ hw _ := by
    apply Outline.safe_mono (fun _ t ht => ⟨⟨ht, trivial⟩, trivial⟩) (fun _ t ht => ⟨ht, trivial⟩)
    exact safe_embed (fun p n l s h o ho => (h o ho).mono (fun _ h => h) (fun _ h => h)) _ hw
  processed m b l hm hg _ :=
    good_succ hm (record_good _ _ l _ hg) (Or.inl List.mem_cons_self)
  unparseable _ _ _ _ _ h := h
  exhausted _ _ _ _ _ h := h
  noProducer _ _ _ _ hd _ := by simp [claim, mark] at hd
  produced _ _ _ _ _ _ _ _ _ := Or.inl List.mem_cons_self
  refused _ _ _ _ _ _ _ _ _ h := absurd h id
  flushed m w _ _ hq he := by
    have hnil : w.ledger.queue = [] := he
    rcases hq with hq | ha
    · rw [hnil] at hq
      contradiction
    · exact ha
  routed topic m e b l hm hg hf :=
    good_succ hm (record_good _ _ l (.routedToDlq topic m e) hg) (Or.inr hf)

/-- In every run whose dead letters arrive, no committed offset has passed a lost
message. Nothing is asked of the sink, the decoder, the commits or the crashes. -/
theorem nothing_lost (E : Setting Sink SinkAns S) (c : Consumer Sink SinkAns) (producer : Bool)
    (s : S) {cfg : Machine.Config Unit (RunOp Sink) (RunAns SinkAns) Bytes Node (World S)}
    (h : ((Broker.machine E c).restrict deadLettersArrive).Reach (Broker.fresh producer s) cfg) :
    NothingLost E cfg.shared := by
  intro p
  exact (good_of_reach (settles E c) (fun _ o ho => absurd ho (Nat.not_lt_zero o))
    trivial h p).1

/-- A consumer whose `ProcessRecord` is one call that succeeds or throws. -/
def blackBox : Consumer Unit (fun _ => Except Bytes Unit) :=
  ⟨.withDefaults (bytes "Consumer") (bytes "orders"), BrokerRuns.parse,
    fun _ _ _ => (Prog.call ()).bind Prog.ofExcept⟩

/-- A topic of these messages, where anything may be answered. -/
def messages (payloads : List Bytes) : Setting Unit (fun _ => Except Bytes Unit) Unit where
  topic := bytes "orders"
  log p := if p = 0 then payloads.map fun payload => (none, some payload) else []
  serdes _ _ := True
  sinkCall _ _ _ _ := True
  sinkEnv _ _ := True
  sinkCrash _ _ := True

def working : Handler Unit (fun _ => Except Bytes Unit) Unit := fun _ _ => (.ok (), ())

/-- The world after one pass through the loop over such a topic. -/
def afterOne (payloads : List Bytes) (produce : Except Bytes Unit) : World Unit :=
  ((blackBox.run .head).run (BrokerRuns.serve (messages payloads) (fun _ => .conversionFailed)
    working produce) (BrokerRuns.started true ())).2

def sampleTopic : Setting Unit (fun _ => Except Bytes Unit) Unit := messages [bytes "{}", bytes "x"]

def sampleLetter : Message := ⟨bytes "orders", 0, 1, none, some (bytes "x")⟩

/-- The first message is processed, and the dead letter of the second is in the queue. -/
def sampleQueued : World Unit :=
  let w := afterOne [bytes "{}", bytes "x"] (.ok ())
  Broker.withLedger (Broker.advance w sampleLetter) (Broker.enqueue w.ledger sampleLetter)

def sampleRouted : Ledger Unit :=
  Broker.record (Broker.deliver sampleQueued.ledger sampleLetter)
    (.routedToDlq (bytes "orders.dlq") sampleLetter (bytes "Payload deserialization failed"))

/-- What is left of the pass when `flush` is called. -/
def sampleRest : RunProg (fun _ : Unit => Except Bytes Unit) Node := do
  call (.flush 1000)
  call (.log (.routedToDlq (bytes "orders.dlq") sampleLetter
    (bytes "Payload deserialization failed")))
  call (.commitSync sampleLetter .unparseable)
  return .head

section Calls

variable {E : Setting Sink SinkAns S} {c : Consumer Sink SinkAns} {w : World S}

theorem call_consume {m : Message}
    (h : Broker.messageAt E m.partition (w.position m.partition) = some m) (n : Nat) :
    (Broker.machine E c).call () (.consume n) w (Delivery.message m) (Broker.advance w m) :=
  ⟨fun _ => false, h, rfl⟩

theorem call_produce (m : Message) (topic body : Bytes) (key : Option Bytes) :
    (Broker.machine E c).call () (.produce m topic body key) w (Except.ok ())
      (Broker.withLedger w (Broker.enqueue w.ledger m)) := rfl

end Calls

theorem sample_queued : ((Broker.machine sampleTopic blackBox).restrict deadLettersArrive).Leads ()
    (blackBox.run .head) (afterOne [bytes "{}", bytes "x"] (.ok ())) sampleRest sampleQueued := by
  refine .ask (b := true) ⟨⟨rfl, rfl⟩, trivial⟩ ?_
  refine .ask ⟨call_consume (m := sampleLetter) (by rfl) 1000, trivial⟩ ?_
  refine .ask (b := ()) ⟨rfl, trivial⟩ ?_
  refine .ask (b := ()) ⟨rfl, rfl⟩ ?_
  refine .ask (b := true) ⟨⟨rfl, rfl⟩, trivial⟩ ?_
  refine .ask (b := (0 : Int)) ⟨rfl, trivial⟩ ?_
  refine .ask ⟨call_produce .., trivial⟩ ?_
  refine .ask (b := ()) ⟨rfl, trivial⟩ ?_
  exact .refl

theorem sample_routed : ((Broker.machine sampleTopic blackBox).restrict deadLettersArrive).Runs ()
    sampleRest (Broker.withLedger sampleQueued (Broker.deliver sampleQueued.ledger sampleLetter))
    (.ok .head) (Broker.commit (Broker.handle (Broker.withLedger sampleQueued sampleRouted)
      sampleLetter) sampleLetter) := by
  refine .ask (b := ()) ⟨rfl, rfl⟩ ?_
  refine .ask (b := ()) ⟨rfl, trivial⟩ ?_
  refine .ask (b := ()) ⟨.inr rfl, trivial⟩ ?_
  exact .ret

/-- With the condition met: one message is processed; the other is queued as a dead letter,
delivered while `flush` waits, and then committed. -/
theorem nothing_lost_processed :
    ∃ cfg, ((Broker.machine sampleTopic blackBox).restrict
        deadLettersArrive).Reach (Broker.fresh true ()) cfg ∧
      cfg.shared.committed 0 = 2 ∧ cfg.shared.ledger.processed.length = 1 ∧
      cfg.shared.ledger.acked = [sampleLetter] ∧ NothingLost sampleTopic cfg.shared := by
  have havro : ∀ data, sampleTopic.serdes data .conversionFailed := fun _ => trivial
  have hsink : ∀ op s, sampleTopic.sinkCall op s (working op s).1 (working op s).2 :=
    fun _ _ => trivial
  have hstart := BrokerRuns.atHead_start (c := blackBox) (C := deadLettersArrive) true () (.ok ())
    havro hsink (by repeat' constructor)
  obtain ⟨cfg, hc, hn, hs⟩ := hstart.pass (v := afterOne [bytes "{}", bytes "x"] (.ok ()))
    (.ok ()) havro hsink (by repeat' constructor) rfl
  have hqueued := hc.leads hn (by
    rw [hs]
    exact sample_queued)
  have hdelivered := hqueued.step (.env (s := Broker.withLedger sampleQueued
    (Broker.deliver sampleQueued.ledger sampleLetter)) ⟨.deliver List.mem_cons_self, by
      intro m hm
      rw [List.mem_singleton.mp hm]
      exact .inr List.mem_cons_self⟩)
  have hrouted := hdelivered.runs (cfg.resume_self () sampleRest sampleQueued) sample_routed
  exact ⟨_, hrouted, rfl, rfl, rfl, nothing_lost _ _ _ _ hrouted⟩

/-- Where `produce` refuses the record, `Run` commits the offset all the same. -/
theorem refused_dead_letter_lost :
    ∃ cfg, (Broker.machine (messages [bytes "x"]) blackBox).Reach (Broker.fresh true ()) cfg ∧
      ¬ NothingLost (messages [bytes "x"]) cfg.shared := by
  let refusal : Except Bytes Unit := .error (bytes "Broker: Message size too large")
  obtain ⟨cfg, hc, hs⟩ := BrokerRuns.reach_pass (E := messages [bytes "x"]) (c := blackBox)
    (C := BrokerRuns.anything) true () (fun _ => .conversionFailed) working refusal
    (fun _ => trivial) (fun _ _ => trivial) (w := afterOne [bytes "x"] refusal)
    (Prog.along_of_forall (fun _ _ => trivial) _ _)
    (Prog.along_of_forall (fun _ _ => trivial) _ _) rfl
  refine ⟨cfg, hc.of_restrict, fun h => ?_⟩
  have hcommitted : cfg.shared.committed 0 = 1 := by rw [hs]; rfl
  obtain ⟨m, -, hm⟩ := h 0 0 (by omega)
  rw [hs] at hm
  rcases hm with hp | ha
  · exact List.not_mem_nil hp
  · exact List.not_mem_nil ha

end CdcPipeline.Proofs.ZeroLoss
