import CdcPipeline.Library.Machine
import CdcPipeline.Model.KafkaConsumerBase

namespace CdcPipeline.Model

open Library Text KafkaConsumerBase

/-- What a run has done with messages: `processed` and `routed` are those it logged as
such, `queue` is the producer's, `acked` holds those whose record the broker confirmed. -/
structure Ledger (S : Type) where
  processed : List Message
  routed : List Message
  queue : List Message
  acked : List Message
  sink : S

/-- One consumer and its group's offsets. `handled` is the offset last given to
`commitSync`, whether or not the broker took it. -/
structure World (S : Type) where
  position : Nat → Nat
  committed : Nat → Nat
  handled : Nat → Nat
  running : Bool
  producer : Bool
  ledger : Ledger S

/-- What surrounds a consumer: its topic's log, the schema registry and the sink. -/
structure Setting (Sink : Type) (SinkAns : Sink → Type) (S : Type) where
  topic : Bytes
  log : Nat → List (Option Bytes × Option Bytes)
  serdes : Bytes → AvroResult → Prop
  sinkCall : (op : Sink) → S → SinkAns op → S → Prop
  sinkEnv : S → S → Prop
  sinkCrash : S → S → Prop

namespace Broker

variable {Sink S : Type} {SinkAns : Sink → Type}

def fresh (producer : Bool) (sink : S) : World S :=
  ⟨fun _ => 0, fun _ => 0, fun _ => 0, false, producer, ⟨[], [], [], [], sink⟩⟩

def messageAt (E : Setting Sink SinkAns S) (p o : Nat) : Option Message :=
  ((E.log p)[o]?).map (fun r => ⟨E.topic, p, o, r.1, r.2⟩)

/-- Partitions that were taken away and given back start from their committed offsets. -/
def rebalance (w : World S) (revoked : Nat → Bool) : World S :=
  { w with
    position := fun p => if revoked p then w.committed p else w.position p
    handled := fun p => if revoked p then w.committed p else w.handled p }

def advance (w : World S) (m : Message) : World S :=
  { w with position := Function.update w.position m.partition (m.offset + 1) }

/-- `consume` hands over the next message of some partition, or none. -/
def Consumes (E : Setting Sink SinkAns S) (w : World S) (d : Delivery) (w' : World S) : Prop :=
  ∃ revoked, match d with
    | .message m => messageAt E m.partition ((rebalance w revoked).position m.partition) = some m ∧
        w' = advance (rebalance w revoked) m
    | _ => w' = rebalance w revoked

def handle (w : World S) (m : Message) : World S :=
  { w with handled := Function.update w.handled m.partition (m.offset + 1) }

def commit (w : World S) (m : Message) : World S :=
  { w with committed := Function.update w.committed m.partition (m.offset + 1) }

/-- `commitSync`, whose request may be lost. -/
def Commits (w : World S) (m : Message) (w' : World S) : Prop :=
  w' = handle w m ∨ w' = commit (handle w m) m

def withLedger (w : World S) (l : Ledger S) : World S := { w with ledger := l }

def record (l : Ledger S) : LogEvent → Ledger S
  | .recordProcessed m => { l with processed := m :: l.processed }
  | .routedToDlq _ m _ => { l with routed := m :: l.routed }
  | _ => l

/-- `produce` only puts the record into the producer's queue. -/
def enqueue (l : Ledger S) (m : Message) : Ledger S := { l with queue := m :: l.queue }

def withSink (l : Ledger S) (s : S) : Ledger S := { l with sink := s }

def call (E : Setting Sink SinkAns S) : (op : RunOp Sink) → World S → RunAns SinkAns op →
    World S → Prop
  | .storeRunning b, w, _, w' => w' = { w with running := b }
  | .loadRunning, w, b, w' => w' = w ∧ b = w.running
  | .consume _, w, d, w' => Consumes E w d w'
  | .serdesDeserialize data, w, a, w' => w' = w ∧ E.serdes data a
  | .sink op, w, a, w' => ∃ s, E.sinkCall op w.ledger.sink a s ∧
      w' = withLedger w (withSink w.ledger s)
  | .hasProducer, w, b, w' => w' = w ∧ b = w.producer
  | .produce m _ _ _, w, .ok _, w' => w' = withLedger w (enqueue w.ledger m)
  | .commitSync m _, w, _, w' => Commits w m w'
  | .log e, w, _, w' => w' = withLedger w (record w.ledger e)
  | _, w, _, w' => w' = w

def deliver (l : Ledger S) (m : Message) : Ledger S :=
  { l with queue := l.queue.erase m, acked := m :: l.acked }

def drop (l : Ledger S) (m : Message) : Ledger S := { l with queue := l.queue.erase m }

/-- What happens around the loop: `Stop`, the producer's background thread, and the
sink's own doings. -/
inductive Env (E : Setting Sink SinkAns S) (w : World S) : World S → Prop where
  | stop : Env E w { w with running := false }
  | deliver {m} (queued : m ∈ w.ledger.queue) : Env E w (withLedger w (deliver w.ledger m))
  | drop {m} (queued : m ∈ w.ledger.queue) : Env E w (withLedger w (drop w.ledger m))
  | sink {s} (eff : E.sinkEnv w.ledger.sink s) :
      Env E w (withLedger w (withSink w.ledger s))

/-- A process that crashed comes back with an empty producer queue, at the committed
offsets, with or without a producer. -/
def crashed (w : World S) (producer : Bool) (s : S) : World S :=
  ⟨w.committed, w.committed, w.committed, false, producer,
    { w.ledger with queue := [], sink := s }⟩

def Crash (E : Setting Sink SinkAns S) (w w' : World S) : Prop :=
  ∃ producer s, E.sinkCrash w.ledger.sink s ∧ w' = crashed w producer s

/-- One consumer reading its topic. -/
def machine (E : Setting Sink SinkAns S) (c : Consumer Sink SinkAns) :
    Machine Unit (RunOp Sink) (RunAns SinkAns) Bytes Node (World S) where
  code := fun _ => c.run
  start := .start
  call := fun _ => call E
  env := Env E
  crash := fun _ => Crash E

end Broker

end CdcPipeline.Model
