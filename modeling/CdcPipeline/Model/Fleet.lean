import CdcPipeline.Library.Machine
import CdcPipeline.Model.KafkaConsumerBase

namespace CdcPipeline.Model

open Library Text KafkaConsumerBase

/-- Redis, and the commands on their way to it whose clients have stopped waiting. -/
structure RedisNet where
  redis : Redis
  late : List Command

namespace RedisNet

def exec (s : RedisNet) (c : Command) : RedisNet := { s with redis := (Redis.exec c s.redis).2 }

/-- A command that takes effect before its call returns, or not at all. Without a
reply the client cannot tell which. -/
inductive Prompt (s : RedisNet) (c : Command) : Option Reply → RedisNet → Prop where
  | replied : Prompt s c (some (Redis.exec c s.redis).1) (s.exec c)
  | replyLost : Prompt s c none (s.exec c)
  | notExecuted : Prompt s c none s
  | refused (str : Bytes) : Prompt s c (some (.error str)) s

/-- A command that may also be executed after its client timed out. -/
inductive Eventual (s : RedisNet) (c : Command) : Option Reply → RedisNet → Prop where
  | prompt {reply s'} (answer : Prompt s c reply s') : Eventual s c reply s'
  | late : Eventual s c none { s with late := c :: s.late }

/-- Connections are lost and made again at will. -/
def call (answer : RedisNet → Command → Option Reply → RedisNet → Prop) :
    (op : RedisOp) → RedisNet → RedisAns op → RedisNet → Prop
  | .command c, s, reply, s' => answer s c reply s'
  | _, s, _, s' => s' = s

/-- A late command arrives. -/
inductive Arrives (s : RedisNet) : RedisNet → Prop where
  | command {c} (sent : c ∈ s.late) : Arrives s { s.exec c with late := s.late.erase c }

end RedisNet

/-- The messages committed as processed, by anyone, and the sink. -/
structure Fleet (S : Type) where
  acknowledged : List Message
  sink : S

/-- What surrounds a fleet. Who is given which message, how often and in which order,
when a loop is stopped and what becomes of dead letters is left open. -/
structure FleetSetting (ι Sink : Type) (SinkAns : Sink → Type) (S : Type) where
  delivers : Message → Prop
  serdes : Bytes → AvroResult → Prop
  sinkCall : ι → (op : Sink) → S → SinkAns op → S → Prop
  sinkEnv : S → S → Prop
  sinkCrash : ι → S → S → Prop

namespace Fleet

variable {ι Sink S : Type} {SinkAns : Sink → Type}

def withSink (w : Fleet S) (s : S) : Fleet S := { w with sink := s }

def acknowledge (w : Fleet S) (m : Message) : Fleet S :=
  { w with acknowledged := m :: w.acknowledged }

def call (E : FleetSetting ι Sink SinkAns S) (i : ι) : (op : RunOp Sink) → Fleet S →
    RunAns SinkAns op → Fleet S → Prop
  | .consume _, w, d, w' => w' = w ∧ ∀ m, d = .message m → E.delivers m
  | .serdesDeserialize data, w, a, w' => w' = w ∧ E.serdes data a
  | .sink op, w, a, w' => ∃ s, E.sinkCall i op w.sink a s ∧ w' = withSink w s
  | .commitSync m .processed, w, _, w' => w' = acknowledge w m
  | _, w, _, w' => w' = w

def machine (E : FleetSetting ι Sink SinkAns S) (c : ι → Consumer Sink SinkAns) :
    Machine ι (RunOp Sink) (RunAns SinkAns) Bytes Node (Fleet S) where
  code := fun i => (c i).run
  start := .start
  call := call E
  env := fun w w' => ∃ s, E.sinkEnv w.sink s ∧ w' = withSink w s
  crash := fun i w w' => ∃ s, E.sinkCrash i w.sink s ∧ w' = withSink w s

end Fleet

end CdcPipeline.Model
