import CdcPipeline.Library.JsonReader
import CdcPipeline.Model.Broker
import CdcPipeline.Model.Debezium
import CdcPipeline.Proofs.RunOutline

namespace CdcPipeline.Proofs.BrokerRuns

open Library Text Model KafkaConsumerBase RunOutline

variable {Sink S : Type} {SinkAns : Sink → Type}

/-- A parser for what `dump` writes; like every parser it refuses what is not UTF-8. -/
def parse (s : Bytes) : Except Bytes Json :=
  match (Json.read s).filter Json.utf8 with
  | some doc => .ok doc
  | none => .error (bytes "[json.exception.parse_error.101] parse error")

theorem parse_utf8 (s : Bytes) (doc : Json) (h : parse s = .ok doc) : doc.utf8 = true := by
  unfold parse at h
  cases hr : (Json.read s).filter Json.utf8 with
  | none => simp [hr] at h
  | some doc' =>
    simp only [hr, Except.ok.injEq] at h
    exact h ▸ (Option.filter_eq_some_iff.mp hr).2

theorem parse_dump {doc : Json} {s : Bytes} (h : doc.dump = .ok s) : parse s = .ok doc := by
  have hutf8 : doc.utf8 = true := (Json.dump_ok_iff doc).mp ⟨s, h⟩
  rw [parse, Json.read_dump h, Option.filter_some, if_pos hutf8]

/-- No schema is known. -/
def plain (_ : Bytes) (avro : AvroResult) : Prop := avro = .conversionFailed

theorem parse_of_decodes {parse : Bytes → Except Bytes Json} {data : Bytes} {doc : Json}
    (h : Decodes parse plain (some data) (some doc)) : parse data = .ok doc := by
  obtain ⟨avro, hanswer, hdecode⟩ := h
  cases data with
  | nil => contradiction
  | cons b bs =>
    simp only [decode] at hdecode
    by_cases hm : hasMagicByte (b :: bs) = true
    · obtain rfl : avro = .conversionFailed := hanswer _ rfl hm
      rw [if_pos hm] at hdecode
      contradiction
    · rw [if_neg hm] at hdecode
      cases hp : parse (b :: bs) with
      | error e =>
        rw [hp] at hdecode
        contradiction
      | ok j =>
        rw [hp] at hdecode
        exact congrArg Except.ok (Option.some.inj hdecode)

/-- An event that was published as plain JSON is decoded as it was. -/
theorem decodes_payload {e : Debezium.Event} (h : e.record.utf8 = true) {doc : Json}
    (hd : Decodes parse plain (some (e.payload.getD [])) (some doc)) : e.record = doc := by
  obtain ⟨t, ht⟩ := (Json.dump_ok_iff e.record).mpr h
  have hparse := parse_of_decodes hd
  rw [Debezium.Event.payload, ht] at hparse
  exact Except.ok.inj ((parse_dump ht).symm.trans hparse)

/-- Answers for a whole run: messages of partition zero in their order, every commit
taken, and what the registry, the sink and `produce` are told to answer. -/
def serve (E : Setting Sink SinkAns S) (avro : Bytes → AvroResult) (sink : Handler Sink SinkAns S)
    (produce : Except Bytes Unit) : Handler (RunOp Sink) (RunAns SinkAns) (World S)
  | .storeRunning b, w => ((), { w with running := b })
  | .loadRunning, w => (w.running, w)
  | .consume _, w => match Broker.messageAt E 0 (w.position 0) with
    | some m => (.message m, Broker.advance w m)
    | none => (.timedOut, w)
  | .serdesDeserialize data, w => (avro data, w)
  | .sink op, w => ((sink op w.ledger.sink).1,
      Broker.withLedger w (Broker.withSink w.ledger (sink op w.ledger.sink).2))
  | .sleepFor _, w => ((), w)
  | .systemClock, w => ((0 : Int), w)
  | .hasProducer, w => (w.producer, w)
  | .produce m _ _ _, w => (produce, match produce with
    | .ok _ => Broker.withLedger w (Broker.enqueue w.ledger m)
    | .error _ => w)
  | .poll _, w => ((), w)
  | .flush _, w => ((), w)
  | .commitSync m _, w => ((), Broker.commit (Broker.handle w m) m)
  | .close, w => ((), w)
  | .log e, w => ((), Broker.withLedger w (Broker.record w.ledger e))

theorem serve_allowed {E : Setting Sink SinkAns S} {avro : Bytes → AvroResult}
    {sink : Handler Sink SinkAns S} {produce : Except Bytes Unit}
    (havro : ∀ data, E.serdes data (avro data))
    (hsink : ∀ op s, E.sinkCall op s (sink op s).1 (sink op s).2)
    (op : RunOp Sink) (w : World S) :
    Broker.call E op w (serve E avro sink produce op w).1 (serve E avro sink produce op w).2 := by
  cases op with
  | consume n =>
    refine ⟨fun _ => false, ?_⟩
    simp only [serve]
    cases hm : Broker.messageAt E 0 (w.position 0) with
    | none => rfl
    | some m =>
      obtain ⟨r, -, rfl⟩ := Option.map_eq_some_iff.mp hm
      exact ⟨hm, rfl⟩
  | serdesDeserialize data => exact ⟨rfl, havro data⟩
  | sink op => exact ⟨_, hsink op _, rfl⟩
  | produce m t b k =>
    cases produce with
    | ok _ => rfl
    | error e => rfl
  | commitSync m site => exact Or.inr rfl
  | loadRunning => exact ⟨rfl, rfl⟩
  | hasProducer => exact ⟨rfl, rfl⟩
  | _ => rfl

def started (producer : Bool) (s : S) : World S :=
  { Broker.fresh producer s with running := true }

section Passes

variable {E : Setting Sink SinkAns S} {c : Consumer Sink SinkAns}
  {C : Machine.Condition Unit (RunOp Sink) (RunAns SinkAns) (World S)} (producer : Bool) (s : S)
  {avro : Bytes → AvroResult} {sink : Handler Sink SinkAns S} (produce : Except Bytes Unit)
  {w w' : World S}

/-- Some run has brought the loop back to its head. -/
def AtHead (E : Setting Sink SinkAns S) (c : Consumer Sink SinkAns)
    (C : Machine.Condition Unit (RunOp Sink) (RunAns SinkAns) (World S)) (producer : Bool) (s : S)
    (w : World S) : Prop :=
  ∃ cfg, ((Broker.machine E c).restrict C).Reach (Broker.fresh producer s) cfg ∧
    cfg.threads () = ((Broker.machine E c).restrict C).code () .head ∧ cfg.shared = w

variable {produce} in
theorem serve_along (havro : ∀ data, E.serdes data (avro data))
    (hsink : ∀ op s, E.sinkCall op s (sink op s).1 (sink op s).2) {p : RunProg SinkAns Node}
    (along : p.Along (serve E avro sink produce) (C.call ()) w) :
    p.Along (serve E avro sink produce) (((Broker.machine E c).restrict C).call ()) w :=
  Prog.along_and (Prog.along_of_forall (serve_allowed havro hsink) p w) along

theorem atHead_start (havro : ∀ data, E.serdes data (avro data))
    (hsink : ∀ op s, E.sinkCall op s (sink op s).1 (sink op s).2)
    (along : (c.run .start).Along (serve E avro sink produce) (C.call ())
      (Broker.fresh producer s)) : AtHead E c C producer s (started producer s) := by
  unfold AtHead
  apply Machine.Reach.run_node (n := Node.start) (serve E avro sink produce) ⟨_, .init, rfl, rfl⟩
  · exact serve_along (p := c.run .start) havro hsink along
  · rfl

variable {producer s} in
/-- One pass through the loop. -/
theorem AtHead.pass {v : World S} (h : AtHead E c C producer s w)
    (havro : ∀ data, E.serdes data (avro data))
    (hsink : ∀ op s, E.sinkCall op s (sink op s).1 (sink op s).2)
    (along : (c.run .head).Along (serve E avro sink produce) (C.call ()) w)
    (run : (c.run .head).run (serve E avro sink produce) w = (.ok .head, v)) :
    AtHead E c C producer s v := by
  unfold AtHead
  apply Machine.Reach.run_node (n := Node.head) (serve E avro sink produce) h
  · exact serve_along (p := c.run .head) havro hsink along
  · exact run

/-- Nothing of another partition is committed. -/
def inZero : RunOp Sink → Bool
  | .commitSync m _ => m.partition == 0
  | _ => true

theorem serve_handled {op : RunOp Sink} (h : inZero op = true) {p : Nat} (hp : p ≠ 0)
    (w : World S) : (serve E avro sink produce op w).2.handled p = w.handled p := by
  cases op with
  | consume n =>
    simp only [serve]
    split <;> rfl
  | produce m t b k => cases produce <;> rfl
  | commitSync m site =>
    have hm : p ≠ m.partition := fun he => hp (he.trans (beq_iff_eq.mp h))
    exact Function.update_of_ne hm _ _
  | _ => rfl

/-- As many passes, each of calls that are allowed. -/
def passes (E : Setting Sink SinkAns S) (c : Consumer Sink SinkAns) (avro : Bytes → AvroResult)
    (sink : Handler Sink SinkAns S) (produce : Except Bytes Unit) (allowed : RunOp Sink → Bool) :
    Nat → World S → Option (World S)
  | 0, w => some w
  | n + 1, w =>
    if (c.run .head).passes (serve E avro sink produce) (fun op => allowed op && inZero op) w then
      match (c.run .head).run (serve E avro sink produce) w with
      | (.ok .head, w') => passes E c avro sink produce allowed n w'
      | _ => none
    else none

variable {produce producer s} in
theorem passes_atHead (h : AtHead E c C producer s w) (havro : ∀ data, E.serdes data (avro data))
    (hsink : ∀ op s, E.sinkCall op s (sink op s).1 (sink op s).2) {allowed : RunOp Sink → Bool}
    (hC : ∀ op, allowed op = true → ∀ w a w', C.call () op w a w') {n : Nat}
    (hdone : passes E c avro sink produce allowed n w = some w') :
    AtHead E c C producer s w' ∧ ∀ p, p ≠ 0 → w'.handled p = w.handled p := by
  induction n generalizing w with
  | zero =>
    obtain rfl := Option.some.inj hdone
    exact ⟨h, fun _ _ => rfl⟩
  | succ n ih =>
    unfold passes at hdone
    split at hdone
    · rename_i hpass
      split at hdone
      · rename_i w₁ hrun
        have along : (c.run .head).Along (serve E avro sink produce) (C.call ()) w :=
          Prog.along_of_passes (fun op hop w => hC op (Bool.and_eq_true_iff.mp hop).1 _ _ _) hpass
        obtain ⟨hlast, hkept⟩ := ih (h.pass produce havro hsink along hrun) hdone
        refine ⟨hlast, fun p hp => (hkept p hp).trans ?_⟩
        have hfirst := Prog.run_keeps (I := fun t => t.handled p = w.handled p)
          (fun op hop t ht => (serve_handled produce (Bool.and_eq_true_iff.mp hop).2 hp t).trans ht)
          hpass rfl
        rwa [hrun] at hfirst
      · contradiction
    · contradiction

variable (sink) in
/-- The start of `Run` and some passes through its loop, in which `k` messages are handled. -/
theorem reach_passes (havro : ∀ data, E.serdes data (avro data))
    (hsink : ∀ op s, E.sinkCall op s (sink op s).1 (sink op s).2) {allowed : RunOp Sink → Bool}
    (hC : ∀ op, allowed op = true → ∀ w a w', C.call () op w a w') (n k : Nat)
    (hstart : (c.run .start).Along (serve E avro sink produce) (C.call ())
      (Broker.fresh producer s))
    (hdone : (passes E c avro sink produce allowed n (started producer s)).map
      (fun w => w.handled 0) = some k) :
    ∃ cfg, ((Broker.machine E c).restrict C).Reach (Broker.fresh producer s) cfg ∧
      cfg.shared.handled = Function.update (fun _ => 0) 0 k := by
  obtain ⟨w', hw', hk⟩ := Option.map_eq_some_iff.mp hdone
  obtain ⟨⟨cfg, hc, -, hs⟩, hkept⟩ :=
    passes_atHead (atHead_start producer s produce havro hsink hstart) havro hsink hC hw'
  refine ⟨cfg, hc, funext fun p => ?_⟩
  rw [hs]
  by_cases hp : p = 0
  · subst hp
    simpa using hk
  · rw [Function.update_of_ne hp]
    exact hkept p hp

end Passes

/-- The start of `Run` and one pass through its loop, where the condition on runs
allows what `serve` answers. -/
theorem reach_pass {E : Setting Sink SinkAns S} {c : Consumer Sink SinkAns}
    {C : Machine.Condition Unit (RunOp Sink) (RunAns SinkAns) (World S)} (producer : Bool) (s : S)
    (avro : Bytes → AvroResult) (sink : Handler Sink SinkAns S) (produce : Except Bytes Unit)
    (havro : ∀ data, E.serdes data (avro data))
    (hsink : ∀ op s, E.sinkCall op s (sink op s).1 (sink op s).2) {w : World S}
    (hstart : (c.run .start).Along (serve E avro sink produce) (C.call ())
      (Broker.fresh producer s))
    (hhead : (c.run .head).Along (serve E avro sink produce) (C.call ()) (started producer s))
    (hrun : (c.run .head).run (serve E avro sink produce) (started producer s) = (.ok .head, w)) :
    ∃ cfg, ((Broker.machine E c).restrict C).Reach (Broker.fresh producer s) cfg ∧
      cfg.shared = w := by
  obtain ⟨cfg, hc, -, hs⟩ :=
    (atHead_start producer s produce havro hsink hstart).pass produce havro hsink hhead hrun
  exact ⟨cfg, hc, hs⟩

/-- A condition that every step meets. -/
def anything : Machine.Condition Unit (RunOp Sink) (RunAns SinkAns) (World S) :=
  ⟨fun _ _ _ _ _ => True, fun _ _ => True, fun _ _ => True⟩

end CdcPipeline.Proofs.BrokerRuns
